import PtpCore.Global.Timers
import Mathlib.Data.List.Nodup

/-!
# A traversal of the timers

The iterator is moved on before a callback is called, so a callback may remove its own timer. It may
remove any other but the one behind its own: there the iterator stands already. The numbers of the
timers grow along the list, so what is behind the iterator has a smaller number than what is ahead
of it, and a timer that is reached is never reached again.
-/

namespace PtpCore
namespace Proof
namespace Global

open Lib
open PtpCore.Global

namespace Timers

section

variable {κ υ : Type} {s : TimerList κ υ} {item item' : TimerItem κ υ} {i j : Nat}

/-! ## The list -/

theorem nodup_ids (s : TimerList κ υ) : (s.items.map (·.id)).Nodup :=
  List.pairwise_map.mpr (s.sorted.imp fun hlt => Nat.ne_of_lt hlt)

theorem nodup_keys (s : TimerList κ υ) : (s.items.map (·.key)).Nodup :=
  List.pairwise_map.mpr s.distinct

/-- A search for an attribute that no two elements share. -/
theorem find?_eq_some_iff_of_nodup {α β : Type} [DecidableEq β] {key : α → β} {xs : List α}
    (hnodup : (xs.map key).Nodup) {b : β} {a : α} :
    (xs.find? fun x => key x = b) = some a ↔ a ∈ xs ∧ key a = b := by
  constructor
  · intro h
    exact ⟨List.mem_of_find?_eq_some h, by simpa using List.find?_some h⟩
  · rintro ⟨hmem, rfl⟩
    cases hfind : xs.find? fun x => key x = key a with
    | none => simpa using List.find?_eq_none.mp hfind a hmem
    | some a' =>
      have hkey : key a' = key a := by simpa using List.find?_some hfind
      rw [List.inj_on_of_nodup_map hnodup (List.mem_of_find?_eq_some hfind) hmem hkey]

theorem at?_eq_some_iff : s.at? i = some item ↔ item ∈ s.items ∧ item.id = i :=
  find?_eq_some_iff_of_nodup (nodup_ids s)

theorem at?_eq_none_iff : s.at? i = none ↔ ∀ item ∈ s.items, item.id ≠ i := by
  rw [TimerList.at?, List.find?_eq_none]
  simp

/-- `it++` goes to the next number in the list. -/
theorem after?_spec (hmem : item ∈ s.items) :
    (∀ next, s.after? item.id = some next → next ∈ s.items ∧ item.id < next.id ∧
      ∀ other ∈ s.items, item.id < other.id → next.id ≤ other.id) ∧
    (s.after? item.id = none → ∀ other ∈ s.items, other.id ≤ item.id) := by
  obtain ⟨before, rest, hsplit⟩ := List.append_of_mem hmem
  have hsorted := s.sorted
  rw [hsplit, List.pairwise_append, List.pairwise_cons] at hsorted
  obtain ⟨-, ⟨hrest, hsorted⟩, hbefore⟩ := hsorted
  have hbefore' : ∀ other ∈ before, other.id < item.id := fun other ho =>
    hbefore other ho item List.mem_cons_self
  have hdrop : s.items.dropWhile (fun other => other.id ≠ item.id) = item :: rest := by
    rw [hsplit, List.dropWhile_append_of_pos, List.dropWhile_cons_of_neg]
    · simp
    · intro other ho
      simpa using Nat.ne_of_lt (hbefore' other ho)
  rw [TimerList.after?, hdrop, List.tail_cons, hsplit]
  cases rest with
  | nil =>
    constructor
    · intro next h
      cases h
    · intro _ other ho
      rcases List.mem_append.mp ho with ho | ho
      · exact Nat.le_of_lt (hbefore' other ho)
      · exact Nat.le_of_eq (congrArg _ (List.mem_singleton.mp ho))
  | cons next rest =>
    refine ⟨?_, fun h => nomatch h⟩
    intro next' h
    cases h
    refine ⟨by simp, hrest next List.mem_cons_self, fun other ho hlt => ?_⟩
    rw [List.mem_append, List.mem_cons, List.mem_cons] at ho
    rcases ho with ho | rfl | rfl | ho
    · exact absurd hlt (Nat.not_lt.mpr (Nat.le_of_lt (hbefore' other ho)))
    · exact absurd hlt (Nat.lt_irrefl _)
    · exact Nat.le_refl _
    · exact Nat.le_of_lt ((List.pairwise_cons.mp hsorted).1 other ho)

/-! ## What becomes of a timer -/

/-- From `s` to `s'`, with these events. A number never comes back. -/
structure Fate (s s' : TimerList κ υ) (es : List TimerEvent) : Prop where
  nextId : s.nextId ≤ s'.nextId
  old : ∀ item' ∈ s'.items, item'.id < s.nextId →
    ∃ item ∈ s.items, item.id = item'.id ∧ item.key = item'.key
  stays : ∀ item ∈ s.items, .removed item.id ∉ es →
    ∃ item' ∈ s'.items, item'.id = item.id ∧ item'.key = item.key ∧
      (.rearmed item.id ∉ es → item' = item)
  gone : ∀ item ∈ s.items, .removed item.id ∈ es → ∀ item' ∈ s'.items, item'.id ≠ item.id
  kinds : ∀ e ∈ es, (∃ i, e = .rearmed i) ∨ ∃ i, e = .removed i

theorem Fate.refl (s : TimerList κ υ) : Fate s s [] where
  nextId := Nat.le_refl _
  old := fun item' hitem' _ => ⟨item', hitem', rfl, rfl⟩
  stays := fun item hitem _ => ⟨item, hitem, rfl, rfl, fun _ => rfl⟩
  gone := fun _ _ h => nomatch h
  kinds := fun _ h => nomatch h

theorem Fate.trans {s' s'' : TimerList κ υ} {es es' : List TimerEvent} (h : Fate s s' es)
    (h' : Fate s' s'' es') : Fate s s'' (es ++ es') where
  nextId := Nat.le_trans h.nextId h'.nextId
  old := by
    intro item'' hitem'' hlt
    obtain ⟨item', hitem', hid', hkey'⟩ := h'.old item'' hitem'' (Nat.lt_of_lt_of_le hlt h.nextId)
    obtain ⟨item, hitem, hid, hkey⟩ := h.old item' hitem' (hid' ▸ hlt)
    exact ⟨item, hitem, hid.trans hid', hkey.trans hkey'⟩
  stays := by
    intro item hitem hnot
    rw [List.mem_append, not_or] at hnot
    obtain ⟨item', hitem', hid', hkey', hsame'⟩ := h.stays item hitem hnot.1
    obtain ⟨item'', hitem'', hid'', hkey'', hsame''⟩ := h'.stays item' hitem' (hid' ▸ hnot.2)
    refine ⟨item'', hitem'', hid''.trans hid', hkey''.trans hkey', ?_⟩
    intro hnot'
    rw [List.mem_append, not_or] at hnot'
    rw [hsame'' (hid' ▸ hnot'.2), hsame' hnot'.1]
  gone := by
    intro item hitem hmem item'' hitem'' hid
    have hlt : item''.id < s.nextId := hid ▸ s.fresh item hitem
    by_cases hfirst : .removed item.id ∈ es
    · obtain ⟨item', hitem', hid', -⟩ := h'.old item'' hitem'' (Nat.lt_of_lt_of_le hlt h.nextId)
      exact h.gone item hitem hfirst item' hitem' (hid'.trans hid)
    · obtain ⟨item', hitem', hid', -⟩ := h.stays item hitem hfirst
      have hlater := (List.mem_append.mp hmem).resolve_left hfirst
      exact h'.gone item' hitem' (hid' ▸ hlater) item'' hitem'' (hid.trans hid'.symm)
  kinds := fun e he => (List.mem_append.mp he).elim (h.kinds e) (h'.kinds e)

/-- A change of one item that keeps which it is. -/
theorem mapItems_spec (s : TimerList κ υ) (f : TimerItem κ υ → TimerItem κ υ)
    (hf : ∀ item, (f item).id = item.id ∧ (f item).key = item.key) :
    (s.mapItems f hf).nextId = s.nextId ∧
      (∀ item ∈ s.items, f item ∈ (s.mapItems f hf).items) ∧
      ∀ item' ∈ (s.mapItems f hf).items, ∃ item ∈ s.items, item' = f item := by
  refine ⟨rfl, fun item hitem => List.mem_map_of_mem hitem, ?_⟩
  intro item' hitem'
  obtain ⟨item, hitem, rfl⟩ := List.mem_map.mp hitem'
  exact ⟨item, hitem, rfl⟩

/-- `AddTimer`, for a timer that is there. -/
def rearm (interval now : UInt64) (i : Nat) (item : TimerItem κ υ) : TimerItem κ υ :=
  if item.id = i then { item with interval := interval, nextTick := now + interval } else item

theorem rearm_same (interval now : UInt64) (i : Nat) (item : TimerItem κ υ) :
    (rearm interval now i item).id = item.id ∧ (rearm interval now i item).key = item.key := by
  rw [rearm]
  split
  · exact ⟨rfl, rfl⟩
  · exact ⟨rfl, rfl⟩

section

variable [DecidableEq κ] [DecidableEq υ]

theorem lookup_eq_some_iff {key : κ × υ} :
    s.lookup key = some item ↔ item ∈ s.items ∧ item.key = key :=
  find?_eq_some_iff_of_nodup (nodup_keys s)

theorem addTimer_of_some {callback : κ} {userData : υ} {interval now : UInt64}
    (h : s.lookup (callback, userData) = some item) :
    s.addTimer callback userData interval now =
      s.mapItems (rearm interval now item.id) (rearm_same interval now item.id) := by
  rw [TimerList.addTimer]
  split
  · rename_i found hfound
    rw [h] at hfound
    cases hfound
    rfl
  · rename_i hnone
    rw [h] at hnone
    cases hnone

theorem addTimer_of_none {callback : κ} {userData : υ} {interval now : UInt64}
    (h : s.lookup (callback, userData) = none) :
    s.addTimer callback userData interval now =
      s.push callback userData interval (now + interval) h := by
  rw [TimerList.addTimer]
  split
  · rename_i found hfound
    rw [h] at hfound
    cases hfound
  · rfl

theorem fate_add (s : TimerList κ υ) (callback : κ) (userData : υ) (interval now : UInt64) :
    Fate s (s.addTimer callback userData interval now)
      (s.event (.add callback userData interval now)).toList := by
  cases hfind : s.lookup (callback, userData) with
  | none =>
    rw [addTimer_of_none hfind, TimerList.event, hfind]
    refine ⟨Nat.le_succ _, ?_, ?_, (fun _ _ h => nomatch h), fun _ h => nomatch h⟩
    · intro item' hitem' hlt
      rcases List.mem_append.mp hitem' with hold | hnew
      · exact ⟨item', hold, rfl, rfl⟩
      · rw [List.mem_singleton] at hnew
        rw [hnew] at hlt
        exact absurd hlt (Nat.lt_irrefl _)
    · intro item hitem _
      exact ⟨item, List.mem_append_left _ hitem, rfl, rfl, fun _ => rfl⟩
  | some found =>
    rw [addTimer_of_some hfind, TimerList.event, hfind]
    have hspec := mapItems_spec s (rearm interval now found.id) (rearm_same interval now found.id)
    refine ⟨Nat.le_refl _, ?_, ?_, ?_, ?_⟩
    · intro item' hitem' _
      obtain ⟨item, hitem, rfl⟩ := hspec.2.2 item' hitem'
      have hsame := rearm_same interval now found.id item
      exact ⟨item, hitem, hsame.1.symm, hsame.2.symm⟩
    · intro item hitem _
      have hsame := rearm_same interval now found.id item
      refine ⟨_, hspec.2.1 item hitem, hsame.1, hsame.2, ?_⟩
      intro hnot
      refine if_neg ?_
      intro hid
      exact hnot (by rw [hid]; exact List.mem_singleton_self _)
    · intro item _ h
      cases List.mem_singleton.mp h
    · intro e he
      exact .inl ⟨found.id, List.mem_singleton.mp he⟩

theorem fate_remove (s : TimerList κ υ) (callback : κ) (userData : υ) :
    Fate s (s.removeTimer callback userData) (s.event (.remove callback userData)).toList := by
  have hold : ∀ item' ∈ (s.removeTimer callback userData).items, item'.id < s.nextId →
      ∃ item ∈ s.items, item.id = item'.id ∧ item.key = item'.key := by
    intro item' hitem' _
    exact ⟨item', List.mem_of_mem_eraseP hitem', rfl, rfl⟩
  -- what is compared equal is erased, and nothing else
  have hmem : ∀ item ∈ s.items, item ∈ (s.removeTimer callback userData).items ↔
      item.key ≠ (callback, userData) := by
    intro item hitem
    constructor
    · intro hin hkey
      have hp : (decide (item.key = (callback, userData))) = true := by simpa using hkey
      obtain ⟨first, before, rest, hbefore, hfirst, hsplit, herase⟩ :=
        List.exists_of_eraseP (p := fun item => item.key = (callback, userData)) hitem hp
      have hdistinct := s.distinct
      rw [hsplit, List.pairwise_append, List.pairwise_cons] at hdistinct
      have hin : item ∈ s.items.eraseP fun item => item.key = (callback, userData) := hin
      rw [herase] at hin
      rcases List.mem_append.mp hin with hin | hin
      · exact hbefore item hin hp
      · have hfirst : first.key = (callback, userData) := by simpa using hfirst
        exact hdistinct.2.1.1 item hin (hfirst.trans hkey.symm)
    · intro hne
      exact (List.mem_eraseP_of_neg (by simpa using hne)).mpr hitem
  cases hfind : s.lookup (callback, userData) with
  | none =>
    rw [TimerList.event, hfind]
    refine ⟨Nat.le_refl _, hold, ?_, (fun _ _ h => nomatch h), fun _ h => nomatch h⟩
    intro item hitem _
    refine ⟨item, (hmem item hitem).mpr ?_, rfl, rfl, fun _ => rfl⟩
    simpa using List.find?_eq_none.mp hfind item hitem
  | some found =>
    rw [TimerList.event, hfind]
    obtain ⟨hfound, hkey⟩ := lookup_eq_some_iff.mp hfind
    refine ⟨Nat.le_refl _, hold, ?_, ?_, ?_⟩
    · intro item hitem hnot
      refine ⟨item, (hmem item hitem).mpr ?_, rfl, rfl, fun _ => rfl⟩
      intro heq
      have hsame : item = found :=
        List.inj_on_of_nodup_map (nodup_keys s) hitem hfound (heq.trans hkey.symm)
      exact hnot (by rw [hsame]; exact List.mem_singleton_self _)
    · intro item hitem hremoved item' hitem' hid
      have hmem' := List.mem_of_mem_eraseP hitem'
      have hsame : item' = found := by
        have hid' : item.id = found.id := TimerEvent.removed.inj (List.mem_singleton.mp hremoved)
        exact List.inj_on_of_nodup_map (nodup_ids s) hmem' hfound (hid.trans hid')
      exact (hmem item' hmem').mp hitem' (hsame ▸ hkey)
    · intro e he
      exact .inr ⟨found.id, List.mem_singleton.mp he⟩

theorem fate_apply (s : TimerList κ υ) (op : TimerOp κ υ) :
    Fate s (s.apply op) (s.event op).toList := by
  cases op with
  | add callback userData interval now => exact fate_add s callback userData interval now
  | remove callback userData => exact fate_remove s callback userData

/-- A timer is removed by the operation that names it. -/
theorem removed_mem_event_iff (hitem : item ∈ s.items) (op : TimerOp κ υ) :
    .removed item.id ∈ (s.event op).toList ↔ op = .remove item.callback item.userData := by
  cases op with
  | add callback userData interval now =>
    rw [TimerList.event]
    cases s.lookup (callback, userData) with
    | none => simp
    | some found => simp
  | remove callback userData =>
    rw [TimerList.event]
    cases hfind : s.lookup (callback, userData) with
    | none =>
      have hne : item.key ≠ (callback, userData) := by
        simpa using List.find?_eq_none.mp hfind item hitem
      refine iff_of_false (by simp) ?_
      intro heq
      cases heq
      exact hne rfl
    | some found =>
      obtain ⟨hfound, hkey⟩ := lookup_eq_some_iff.mp hfind
      constructor
      · intro h
        have hid : item.id = found.id := by simpa using h
        have hsame : item = found := List.inj_on_of_nodup_map (nodup_ids s) hitem hfound hid
        rw [← hsame] at hkey
        cases hkey
        rfl
      · intro heq
        cases heq
        have hsame : item = found := List.inj_on_of_nodup_map (nodup_keys s) hitem hfound hkey.symm
        simp [hsame]

/-! ## A callback -/

variable {σ : Type}

/-- What a callback does, and what is noted of it. -/
theorem apply_ops (ops : List (TimerOp κ υ)) (t : Traversal κ υ σ) :
    ∃ es, (ops.foldl Traversal.apply t).log = t.log ++ es ∧
      Fate t.timers (ops.foldl Traversal.apply t).timers es ∧
      ∀ item ∈ t.timers.items,
        .removed item.id ∈ es ↔ .remove item.callback item.userData ∈ ops := by
  induction ops generalizing t with
  | nil => exact ⟨[], (List.append_nil _).symm, .refl _, by simp⟩
  | cons op ops ih =>
    obtain ⟨es, hlog, hfate, hremoved⟩ := ih (t.apply op)
    have hfirst := fate_apply t.timers op
    refine ⟨(t.timers.event op).toList ++ es, ?_, hfirst.trans hfate, ?_⟩
    · rw [List.foldl_cons, hlog, ← List.append_assoc]
      rfl
    · intro item hitem
      rw [List.mem_append, List.mem_cons, removed_mem_event_iff hitem op, eq_comm]
      refine or_congr_right' fun hnot => ?_
      -- it is still there for the rest of the operations
      have hstays : .removed item.id ∉ (t.timers.event op).toList := fun h =>
        hnot ((removed_mem_event_iff hitem op).mp h).symm
      obtain ⟨item', hitem', hid, hkey, -⟩ := hfirst.stays item hitem hstays
      have hcallback : item'.callback = item.callback := congrArg Prod.fst hkey
      have huserData : item'.userData = item.userData := congrArg Prod.snd hkey
      rw [← hid, ← hcallback, ← huserData]
      exact hremoved item' hitem'

/-! ## One pass -/

/-- The callback is called, and names that timer. -/
def Removes (C : Callbacks κ υ σ) (currTick : UInt64) (t : Traversal κ υ σ)
    (item other : TimerItem κ υ) : Prop :=
  item.nextTick ≤ currTick ∧
    .remove other.callback other.userData ∈ (C t.world item.callback item.userData).1

/-- The list after the pass at `item`. -/
structure Passed (C : Callbacks κ υ σ) (currTick : UInt64) (t t' : Traversal κ υ σ)
    (item : TimerItem κ υ) (es : List TimerEvent) : Prop where
  log : t'.log = t.log ++ .reached item.id ::
    ((if item.nextTick ≤ currTick then [.fired item.id] else []) ++ es)
  nextId : t.timers.nextId ≤ t'.timers.nextId
  old : ∀ other' ∈ t'.timers.items, other'.id < t.timers.nextId →
    ∃ other ∈ t.timers.items, other.id = other'.id
  stays : ∀ other ∈ t.timers.items, .removed other.id ∉ es →
    ∃ other' ∈ t'.timers.items, other'.id = other.id ∧
      (other.id ≠ item.id → .rearmed other.id ∉ es → other' = other)
  gone : ∀ other ∈ t.timers.items, .removed other.id ∈ es →
    ∀ other' ∈ t'.timers.items, other'.id ≠ other.id
  kinds : ∀ e ∈ es, (∃ i, e = .rearmed i) ∨ ∃ i, e = .removed i
  removed : ∀ other ∈ t.timers.items, .removed other.id ∈ es ↔ Removes C currTick t item other

/-- `pItem->next_tick += pItem->interval`. -/
def later (i : Nat) (item : TimerItem κ υ) : TimerItem κ υ :=
  if item.id = i then { item with nextTick := item.nextTick + item.interval } else item

omit [DecidableEq κ] [DecidableEq υ] in
theorem later_same (i : Nat) (item : TimerItem κ υ) :
    (later i item).id = item.id ∧ (later i item).callback = item.callback ∧
      (later i item).userData = item.userData := by
  rw [later]
  split
  · exact ⟨rfl, rfl, rfl⟩
  · exact ⟨rfl, rfl, rfl⟩

theorem exists_passed (C : Callbacks κ υ σ) (currTick : UInt64) (t : Traversal κ υ σ)
    (item : TimerItem κ υ) :
    ∃ es, Passed C currTick t (Traversal.visit C currTick (t.note (.reached item.id)) item)
      item es := by
  rw [Traversal.visit]
  by_cases hdue : item.nextTick ≤ currTick
  · rw [if_pos hdue]
    obtain ⟨es, hlog, hfate, hremoved⟩ := apply_ops (C t.world item.callback item.userData).1
      (⟨t.timers.advance item.id, (C t.world item.callback item.userData).2,
        t.log ++ [.reached item.id] ++ [.fired item.id]⟩ : Traversal κ υ σ)
    -- the items of the list before, as the callback finds them
    have hlater : ∀ other ∈ t.timers.items,
        later item.id other ∈ (t.timers.advance item.id).items := fun other hother =>
      List.mem_map_of_mem hother
    refine ⟨es, ?_, hfate.nextId, ?_, ?_, ?_, hfate.kinds, ?_⟩
    · refine hlog.trans ?_
      rw [if_pos hdue, List.append_assoc, List.append_assoc]
      rfl
    · intro other' hother' hlt
      obtain ⟨other, hother, hid, -⟩ := hfate.old other' hother' hlt
      obtain ⟨other₀, hother₀, rfl⟩ := List.mem_map.mp hother
      exact ⟨other₀, hother₀, (later_same item.id other₀).1.symm.trans hid⟩
    · intro other hother hnot
      have hid := (later_same item.id other).1
      obtain ⟨other', hother', hid', -, hsame⟩ := hfate.stays _ (hlater other hother) (hid ▸ hnot)
      refine ⟨other', hother', hid'.trans hid, ?_⟩
      intro hne hrearmed
      rw [hsame (hid ▸ hrearmed)]
      exact if_neg hne
    · intro other hother hmem other' hother'
      have hid := (later_same item.id other).1
      rw [← hid]
      exact hfate.gone _ (hlater other hother) (hid ▸ hmem) other' hother'
    · intro other hother
      obtain ⟨hid, hcallback, huserData⟩ := later_same item.id other
      rw [Removes, and_iff_right hdue, ← hcallback, ← huserData, ← hremoved _ (hlater other hother),
        hid]
  · rw [if_neg hdue]
    refine ⟨[], ?_, Nat.le_refl _, ?_, ?_, ?_, (fun _ h => nomatch h), ?_⟩
    · rw [if_neg hdue]
      rfl
    · intro other' hother' _
      exact ⟨other', hother', rfl⟩
    · intro other hother _
      exact ⟨other, hother, rfl, fun _ _ => rfl⟩
    · intro other _ h
      cases h
    · intro other _
      exact iff_of_false (by simp) fun h => hdue h.1

theorem pass_at {C : Callbacks κ υ σ} {currTick : UInt64} {t : Traversal κ υ σ}
    (hitem : t.timers.at? i = some item) : Traversal.pass C currTick (t, some i) =
      .again (Traversal.visit C currTick (t.note (.reached i)) item,
        (t.timers.after? i).map (·.id)) := by
  have hat : (fun (t : Traversal κ υ σ) id => t.timers.at? id) t i = some item := hitem
  exact scan_at hat

end

/-! ## Every pass -/

section

variable {σ : Type}

/-- The timer was removed or set again, and not reached before that. -/
def Disturbed (i : Nat) (log : List TimerEvent) : Prop :=
  ∃ pre, pre <+: log ∧ .reached i ∉ pre ∧ (.removed i ∈ pre ∨ .rearmed i ∈ pre)

theorem Disturbed.append {log : List TimerEvent} (h : Disturbed i log) (es : List TimerEvent) :
    Disturbed i (log ++ es) := by
  obtain ⟨pre, hpre, hrest⟩ := h
  exact ⟨pre, hpre.trans (List.prefix_append _ _), hrest⟩

/-- The timers that were reached, in this order. -/
def reachedIds (log : List TimerEvent) : List Nat :=
  log.filterMap fun
    | .reached i => some i
    | _ => none

theorem mem_reachedIds {log : List TimerEvent} : i ∈ reachedIds log ↔ .reached i ∈ log := by
  rw [reachedIds, List.mem_filterMap]
  constructor
  · rintro ⟨e, he, heq⟩
    cases e with
    | reached j =>
      cases heq
      exact he
    | fired j => cases heq
    | rearmed j => cases heq
    | removed j => cases heq
  · intro h
    exact ⟨_, h, rfl⟩

/-- After `n` passes of a traversal that began with `s₀`. -/
structure Traversing (s₀ : TimerList κ υ) (currTick : UInt64) (n : Nat)
    (st : Traversal κ υ σ × Option Nat) : Prop where
  /-- The iterator is at a timer that is in the list. -/
  standing : ∀ j, st.2 = some j → ∃ item ∈ st.1.timers.items, item.id = j
  nextId : s₀.nextId ≤ st.1.timers.nextId
  old : ∀ item ∈ st.1.timers.items, item.id < s₀.nextId → item.id ∈ s₀.items.map (·.id)
  behind : ∀ i, .reached i ∈ st.1.log ∨ .fired i ∈ st.1.log → ∀ j, st.2 = some j → i < j
  waiting : ∀ item ∈ s₀.items, .reached item.id ∉ st.1.log → ¬ Disturbed item.id st.1.log →
    item ∈ st.1.timers.items ∧ ∃ j, st.2 = some j ∧ j ≤ item.id
  fires : ∀ item ∈ s₀.items, item.nextTick ≤ currTick → .reached item.id ∈ st.1.log →
    ¬ Disturbed item.id st.1.log → st.1.log.count (.fired item.id) = 1
  passes : (reachedIds st.1.log).length = n
  nodup : (reachedIds st.1.log).Nodup
  known : ∀ i ∈ reachedIds st.1.log, i < s₀.nextId → i ∈ s₀.items.map (·.id)

theorem traversing_begin (s₀ : TimerList κ υ) (currTick : UInt64) (world : σ) :
    Traversing s₀ currTick 0 (Traversal.begin s₀ world) where
  standing := by
    intro j hj
    obtain ⟨item, hitem, rfl⟩ := Option.map_eq_some_iff.mp hj
    exact ⟨item, List.mem_of_mem_head? hitem, rfl⟩
  nextId := Nat.le_refl _
  old := fun item hitem _ => List.mem_map_of_mem hitem
  behind := by
    intro i h
    rcases h with h | h
    · cases h
    · cases h
  waiting := by
    intro item hitem _ _
    refine ⟨hitem, ?_⟩
    have hsorted := s₀.sorted
    rw [Traversal.begin]
    cases hitems : s₀.items with
    | nil =>
      rw [hitems] at hitem
      cases hitem
    | cons first rest =>
      rw [hitems] at hitem hsorted
      refine ⟨first.id, rfl, ?_⟩
      rcases List.mem_cons.mp hitem with rfl | hitem
      · exact Nat.le_refl _
      · exact Nat.le_of_lt ((List.pairwise_cons.mp hsorted).1 item hitem)
  fires := fun _ _ _ h => nomatch h
  passes := rfl
  nodup := List.nodup_nil
  known := fun _ h => nomatch h

section

variable {s₀ : TimerList κ υ} {C : Callbacks κ υ σ} {currTick : UInt64} {n : Nat}
  {t t' : Traversal κ υ σ} {es : List TimerEvent} {it : Option Nat}

theorem Passed.mem_log (h : Passed C currTick t t' item es) {e : TimerEvent} :
    e ∈ t'.log ↔ e ∈ t.log ∨ e = .reached item.id ∨
      (item.nextTick ≤ currTick ∧ e = .fired item.id) ∨ e ∈ es := by
  rw [h.log, List.mem_append, List.mem_cons, List.mem_append]
  by_cases hdue : item.nextTick ≤ currTick
  · simp [hdue]
  · simp [hdue]

theorem Passed.reached_mem (h : Passed C currTick t t' item es) :
    .reached i ∈ t'.log ↔ .reached i ∈ t.log ∨ i = item.id := by
  rw [h.mem_log]
  have hnot : .reached i ∉ es := by
    intro hmem
    rcases h.kinds _ hmem with ⟨j, hj⟩ | ⟨j, hj⟩
    · cases hj
    · cases hj
  simp [hnot]

theorem Passed.fired_mem (h : Passed C currTick t t' item es) (hfired : .fired i ∈ t'.log) :
    .fired i ∈ t.log ∨ i = item.id := by
  rcases h.mem_log.mp hfired with hold | heq | ⟨-, heq⟩ | hmem
  · exact .inl hold
  · cases heq
  · cases heq
    exact .inr rfl
  · rcases h.kinds _ hmem with ⟨j, hj⟩ | ⟨j, hj⟩
    · cases hj
    · cases hj

theorem Passed.count_fired (h : Passed C currTick t t' item es) :
    t'.log.count (.fired i) =
      t.log.count (.fired i) + if item.nextTick ≤ currTick ∧ i = item.id then 1 else 0 := by
  have hnot : .fired i ∉ es := by
    intro hmem
    rcases h.kinds _ hmem with ⟨j, hj⟩ | ⟨j, hj⟩
    · cases hj
    · cases hj
  rw [h.log, List.count_append, List.count_cons, List.count_append,
    List.count_eq_zero_of_not_mem hnot]
  by_cases hdue : item.nextTick ≤ currTick
  · by_cases hi : i = item.id
    · simp [hdue, hi]
    · simp [hdue, hi, Ne.symm hi]
  · simp [hdue]

theorem Passed.reachedIds_eq (h : Passed C currTick t t' item es) :
    reachedIds t'.log = reachedIds t.log ++ [item.id] := by
  have hnone : ∀ e ∈ es, (match e with
      | .reached i => some i
      | _ => none) = (none : Option Nat) := by
    intro e he
    rcases h.kinds e he with ⟨j, rfl⟩ | ⟨j, rfl⟩
    · rfl
    · rfl
  have hes : es.filterMap (fun
      | .reached i => some i
      | _ => none) = ([] : List Nat) := List.filterMap_eq_nil_iff.mpr hnone
  rw [reachedIds, h.log, List.filterMap_append, List.filterMap_cons, List.filterMap_append, hes]
  by_cases hdue : item.nextTick ≤ currTick
  · simp [hdue, reachedIds]
  · simp [hdue, reachedIds]

/-- **One pass.** The iterator stays in the list if the timer it stands at is not removed. -/
theorem Traversing.next (h : Traversing s₀ currTick n (t, some item.id))
    (hitem : item ∈ t.timers.items) (hpassed : Passed C currTick t t' item es)
    (hspares : ∀ next, t.timers.after? item.id = some next → ¬ Removes C currTick t item next) :
    Traversing s₀ currTick (n + 1) (t', (t.timers.after? item.id).map (·.id)) := by
  have hafter := after?_spec hitem
  have hnotReached : .reached item.id ∉ t.log := fun hmem =>
    Nat.lt_irrefl _ (h.behind _ (.inl hmem) _ rfl)
  have hearlier : ∀ {i}, ¬ Disturbed i t'.log → ¬ Disturbed i t.log := by
    intro i hnot hdisturbed
    rw [hpassed.log] at hnot
    exact hnot (hdisturbed.append _)
  refine ⟨?_, Nat.le_trans h.nextId hpassed.nextId, ?_, ?_, ?_, ?_, ?_, ?_, ?_⟩
  · intro j hj
    obtain ⟨next, hnext, rfl⟩ := Option.map_eq_some_iff.mp hj
    have hmem := (hafter.1 next hnext).1
    have hnot : .removed next.id ∉ es := fun hr =>
      hspares next hnext ((hpassed.removed next hmem).mp hr)
    obtain ⟨next', hnext', hid, -⟩ := hpassed.stays next hmem hnot
    exact ⟨next', hnext', hid⟩
  · intro other' hother' hlt
    obtain ⟨other, hother, hid⟩ := hpassed.old other' hother' (Nat.lt_of_lt_of_le hlt h.nextId)
    rw [← hid] at hlt ⊢
    exact h.old other hother hlt
  · intro i hi j hj
    obtain ⟨next, hnext, rfl⟩ := Option.map_eq_some_iff.mp hj
    have hlt := (hafter.1 next hnext).2.1
    have hle : i ≤ item.id := by
      rcases hi with hreached | hfired
      · rcases hpassed.reached_mem.mp hreached with hold | rfl
        · exact Nat.le_of_lt (h.behind i (.inl hold) _ rfl)
        · exact Nat.le_refl _
      · rcases hpassed.fired_mem hfired with hold | rfl
        · exact Nat.le_of_lt (h.behind i (.inr hold) _ rfl)
        · exact Nat.le_refl _
    exact Nat.lt_of_le_of_lt hle hlt
  · intro other hother hnot hquiet
    rw [hpassed.reached_mem, not_or] at hnot
    obtain ⟨hmem, j, hj, hle⟩ := h.waiting other hother hnot.1 (hearlier hquiet)
    cases hj
    have hlt : item.id < other.id := Nat.lt_of_le_of_ne hle fun heq => hnot.2 heq.symm
    -- nothing has happened to it in this pass
    have hnone : ∀ e ∈ es, e ≠ .removed other.id ∧ e ≠ .rearmed other.id := by
      intro e he
      have hlog : e ∈ t'.log := hpassed.mem_log.mpr (.inr (.inr (.inr he)))
      have hnot' : .reached other.id ∉ t'.log := by
        rw [hpassed.reached_mem, not_or]
        exact hnot
      refine ⟨?_, ?_⟩
      · rintro rfl
        exact hquiet ⟨_, List.prefix_refl _, hnot', .inl hlog⟩
      · rintro rfl
        exact hquiet ⟨_, List.prefix_refl _, hnot', .inr hlog⟩
    obtain ⟨other', hother', -, hsame⟩ :=
      hpassed.stays other hmem fun hr => (hnone _ hr).1 rfl
    rw [hsame (Nat.ne_of_gt hlt) fun hr => (hnone _ hr).2 rfl] at hother'
    refine ⟨hother', ?_⟩
    cases hnext : t.timers.after? item.id with
    | none => exact absurd (hafter.2 hnext other hmem) (Nat.not_le.mpr hlt)
    | some next => exact ⟨next.id, rfl, (hafter.1 next hnext).2.2 other hmem hlt⟩
  · intro other hother hdue hreached hquiet
    rw [hpassed.count_fired]
    rcases hpassed.reached_mem.mp hreached with hreached | hid
    · have hne : other.id ≠ item.id := fun heq => hnotReached (heq ▸ hreached)
      rw [if_neg fun hand => hne hand.2]
      exact h.fires other hother hdue hreached (hearlier hquiet)
    · -- it is the timer of this pass, and still as it was at the start
      have hmem := (h.waiting other hother (hid ▸ hnotReached) (hearlier hquiet)).1
      have hsame : other = item := List.inj_on_of_nodup_map (nodup_ids t.timers) hmem hitem hid
      have hnotFired : .fired other.id ∉ t.log := fun hfired =>
        Nat.lt_irrefl _ (hid ▸ h.behind other.id (.inr hfired) item.id rfl)
      rw [if_pos ⟨hsame ▸ hdue, hid⟩, List.count_eq_zero_of_not_mem hnotFired]
  · rw [hpassed.reachedIds_eq, List.length_append, h.passes]
    rfl
  · rw [hpassed.reachedIds_eq, List.nodup_append]
    refine ⟨h.nodup, List.nodup_singleton _, ?_⟩
    intro i hi j hj
    rw [List.mem_singleton.mp hj]
    rintro rfl
    exact hnotReached (mem_reachedIds.mp hi)
  · intro i hi hlt
    rw [hpassed.reachedIds_eq] at hi
    rcases List.mem_append.mp hi with hi | hi
    · exact h.known i hi hlt
    · rw [List.mem_singleton] at hi
      rw [hi] at hlt ⊢
      exact h.old item hitem hlt

/-- Within as many passes as there were timers, all of these are reached. -/
theorem Traversing.reached (h : Traversing s₀ currTick n (t, it))
    (hend : it = none ∨ s₀.items.length ≤ n) (hitem : item ∈ s₀.items)
    (hquiet : ¬ Disturbed item.id t.log) : .reached item.id ∈ t.log := by
  by_contra hnot
  obtain ⟨-, j, hj, hle⟩ := h.waiting item hitem hnot hquiet
  rcases hend with rfl | hend
  · cases hj
  · -- it would be one timer too many
    have hsubset : reachedIds t.log ++ [item.id] ⊆ s₀.items.map (·.id) := by
      intro i hi
      rcases List.mem_append.mp hi with hi | hi
      · refine h.known i hi ?_
        have hlt := h.behind i (.inl (mem_reachedIds.mp hi)) j hj
        exact Nat.lt_of_lt_of_le hlt (Nat.le_of_lt (Nat.lt_of_le_of_lt hle (s₀.fresh item hitem)))
      · rw [List.mem_singleton.mp hi]
        exact List.mem_map_of_mem hitem
    have hnodup : (reachedIds t.log ++ [item.id]).Nodup := by
      rw [List.nodup_append]
      refine ⟨h.nodup, List.nodup_singleton _, ?_⟩
      intro i hi i' hi'
      rw [List.mem_singleton.mp hi']
      rintro rfl
      exact hnot (mem_reachedIds.mp hi)
    have hlength := List.Nodup.length_le_of_subset hnodup hsubset
    have hpasses : (reachedIds t.log).length = n := h.passes
    rw [List.length_append, List.length_map, hpasses, List.length_singleton] at hlength
    omega

end

end

/-! ## The traversal -/

section

variable [DecidableEq κ] [DecidableEq υ] {σ : Type}

/-- Every timer that was due, and was left alone until it was reached, has fired once. -/
def FiredOnce (s₀ : TimerList κ υ) (currTick : UInt64) (log : List TimerEvent) : Prop :=
  ∀ item ∈ s₀.items, item.nextTick ≤ currTick → ¬ Disturbed item.id log →
    log.count (.fired item.id) = 1

/-- What is wanted of a traversal after `n` passes, of which there may be any number. -/
def InOrder (C : Callbacks κ υ σ) (currTick : UInt64) (s₀ : TimerList κ υ) (world : σ) (n : Nat) :
    Prop :=
  match loop (Traversal.pass C currTick) n (Traversal.begin s₀ world) with
  | .again (t, _) => (t.timers.items.map (·.key)).Nodup ∧
    (s₀.items.length ≤ n → FiredOnce s₀ currTick t.log)
  | .leave t => (t.timers.items.map (·.key)).Nodup ∧ FiredOnce s₀ currTick t.log
  | .invalid => False

/-- A callback that is called now does not remove the timer behind its own. -/
def SparesNext (C : Callbacks κ υ σ) (currTick : UInt64) :
    Traversal κ υ σ × Option Nat → Prop
  | (t, some i) => ∀ item next, t.timers.at? i = some item → t.timers.after? i = some next →
    ¬ Removes C currTick t item next
  | (_, none) => True

variable (C : Callbacks κ υ σ) (currTick : UInt64) (s₀ : TimerList κ υ) (world : σ)

/-- The passes so far, if each spares the next timer. -/
theorem traversing_of_sparesNext (hspares : ∀ n st,
    loop (Traversal.pass C currTick) n (Traversal.begin s₀ world) = .again st →
      SparesNext C currTick st) {n : Nat} {st : Traversal κ υ σ × Option Nat}
    (h : loop (Traversal.pass C currTick) n (Traversal.begin s₀ world) = .again st) :
    Traversing s₀ currTick n st := by
  refine loop_invariant (Traversing s₀ currTick) (traversing_begin s₀ currTick world) ?_ h
  rintro n ⟨t, it⟩ st₂ hloop hinv hpass
  cases it with
  | none => cases hpass
  | some i =>
    obtain ⟨item, hitem, rfl⟩ := hinv.standing i rfl
    have hat := at?_eq_some_iff.mpr ⟨hitem, rfl⟩
    rw [pass_at hat] at hpass
    cases hpass
    obtain ⟨es, hpassed⟩ := exists_passed C currTick t item
    refine hinv.next hitem hpassed ?_
    intro next hnext
    exact hspares n _ hloop item next hat hnext

theorem inOrder_of_sparesNext (hspares : ∀ n st,
    loop (Traversal.pass C currTick) n (Traversal.begin s₀ world) = .again st →
      SparesNext C currTick st) (n : Nat) : InOrder C currTick s₀ world n := by
  have hinv := @traversing_of_sparesNext _ _ _ _ _ C currTick s₀ world hspares
  have hfired : ∀ m (t : Traversal κ υ σ) it, Traversing s₀ currTick m (t, it) →
      it = none ∨ s₀.items.length ≤ m → FiredOnce s₀ currTick t.log := by
    intro m t it htraversing hend item hitem hdue hquiet
    exact htraversing.fires item hitem hdue (htraversing.reached hend hitem hquiet) hquiet
  rw [InOrder]
  cases hloop : loop (Traversal.pass C currTick) n (Traversal.begin s₀ world) with
  | again st => exact ⟨nodup_keys _, fun hle => hfired n st.1 st.2 (hinv hloop) (.inr hle)⟩
  | leave t =>
    refine ⟨nodup_keys _, ?_⟩
    obtain ⟨m, ⟨t', it⟩, hm, hlast⟩ := exists_last_pass hloop fun _ h => nomatch h
    have htraversing := hinv hm
    cases it with
    | none =>
      cases hlast
      exact hfired m t none htraversing (.inl rfl)
    | some i =>
      obtain ⟨item, hitem, rfl⟩ := htraversing.standing i rfl
      rw [pass_at (at?_eq_some_iff.mpr ⟨hitem, rfl⟩)] at hlast
      cases hlast
  | invalid =>
    obtain ⟨m, ⟨t', it⟩, hm, hlast⟩ := exists_last_pass hloop fun _ h => nomatch h
    cases it with
    | none => cases hlast
    | some i =>
      obtain ⟨item, hitem, rfl⟩ := (hinv hm).standing i rfl
      rw [pass_at (at?_eq_some_iff.mpr ⟨hitem, rfl⟩)] at hlast
      cases hlast

/-- The iterator stands at a timer that is removed, and is used. -/
theorem not_inOrder_of_removes {n : Nat} {t : Traversal κ υ σ} {i : Nat} {item next : TimerItem κ υ}
    (h : loop (Traversal.pass C currTick) n (Traversal.begin s₀ world) = .again (t, some i))
    (hat : t.timers.at? i = some item) (hnext : t.timers.after? i = some next)
    (hremoves : Removes C currTick t item next) : ¬ InOrder C currTick s₀ world (n + 2) := by
  obtain ⟨hitem, rfl⟩ := at?_eq_some_iff.mp hat
  obtain ⟨es, hpassed⟩ := exists_passed C currTick t item
  have hmem := ((after?_spec hitem).1 next hnext).1
  have hgone := hpassed.gone next hmem ((hpassed.removed next hmem).mpr hremoves)
  have hfirst : loop (Traversal.pass C currTick) (n + 1) (Traversal.begin s₀ world) =
      .again (Traversal.visit C currTick (t.note (.reached item.id)) item, some next.id) := by
    refine loop_succ_eq_again_iff.mpr ⟨_, h, ?_⟩
    rw [pass_at hat, hnext]
    rfl
  -- it is not there any more
  have hnone : (Traversal.visit C currTick (t.note (.reached item.id)) item).timers.at? next.id =
      none := at?_eq_none_iff.mpr hgone
  have hinvalid : Traversal.pass C currTick
      (Traversal.visit C currTick (t.note (.reached item.id)) item, some next.id) = .invalid :=
    scan_erased hnone
  have hlast := (loop_add_of_again hfirst 1).trans (loop_of_invalid hinvalid 0)
  rw [InOrder, hlast]
  exact id

/-- A traversal is in order if and only if no callback removes the timer that stands behind its
    own. -/
theorem inOrder_iff_sparesNext : (∀ n, InOrder C currTick s₀ world n) ↔
    ∀ n st, loop (Traversal.pass C currTick) n (Traversal.begin s₀ world) = .again st →
      SparesNext C currTick st := by
  constructor
  · rintro horder n ⟨t, it⟩ hloop
    cases it with
    | none => trivial
    | some i =>
      intro item next hat hnext hremoves
      exact not_inOrder_of_removes C currTick s₀ world hloop hat hnext hremoves (horder (n + 2))
  · exact inOrder_of_sparesNext C currTick s₀ world

end

end

/-! ### Two timers -/

/-- Two timers for the same callback, due at the time 5. -/
def twoTimers : TimerList Unit Bool :=
  (TimerList.empty.addTimer () false 5 0).addTimer () true 5 0

/-- The callback of the first timer removes the second. -/
def firstRemovesSecond : Callbacks Unit Bool Unit := fun world _ userData =>
  (if userData then [] else [.remove () true], world)

theorem not_inOrder_twoTimers : ¬ InOrder firstRemovesSecond 5 twoTimers () 2 := id

end Timers

end Global
end Proof
end PtpCore
