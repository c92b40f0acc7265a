import PtpCore.Lib.Loop
import Mathlib.Data.List.Pairwise

/-!
# The timers (`ptp_global/EventDispatch.cpp`)

`CEventDispatch` has its timers in a `std::list`. An element of the list is known by the number of
its allocation, and so is an iterator that stands at it. Callbacks are code of others: a callback
may add and remove timers, and what it does depends on a world of its own.

`_CheckTimer` goes on while there are timers ahead of it. `none` for the iterator is the end of the
list.
-/

namespace PtpCore
namespace Global

open Lib

section

variable {κ υ : Type}

/-- `TimerItem`, with the number of its allocation. -/
structure TimerItem (κ υ : Type) where
  id : Nat
  callback : κ
  userData : υ
  interval : UInt64
  nextTick : UInt64
  deriving DecidableEq, Repr

/-- What `AddTimer` and `RemoveTimer` compare. -/
def TimerItem.key (item : TimerItem κ υ) : κ × υ := (item.callback, item.userData)

/-- `m_timer_list`. New timers are put at the end. -/
structure TimerList (κ υ : Type) where
  items : List (TimerItem κ υ)
  nextId : Nat
  sorted : items.Pairwise fun a b => a.id < b.id
  fresh : ∀ item ∈ items, item.id < nextId
  /-- No two for the same callback and data. -/
  distinct : items.Pairwise fun a b => a.key ≠ b.key

namespace TimerList

def empty : TimerList κ υ := ⟨[], 0, .nil, by simp, .nil⟩

/-- A change of the items that keeps which they are. -/
def mapItems (s : TimerList κ υ) (f : TimerItem κ υ → TimerItem κ υ)
    (hf : ∀ item, (f item).id = item.id ∧ (f item).key = item.key) : TimerList κ υ where
  items := s.items.map f
  nextId := s.nextId
  sorted := by
    rw [List.pairwise_map]
    exact s.sorted.imp fun h => by rw [(hf _).1, (hf _).1]; exact h
  fresh := by
    intro item hitem
    obtain ⟨item', hmem, rfl⟩ := List.mem_map.mp hitem
    exact (hf item').1 ▸ s.fresh item' hmem
  distinct := by
    rw [List.pairwise_map]
    exact s.distinct.imp fun h => by rw [(hf _).2, (hf _).2]; exact h

/-- The item that is compared equal first. -/
def lookup [DecidableEq κ] [DecidableEq υ] (s : TimerList κ υ) (key : κ × υ) :
    Option (TimerItem κ υ) :=
  s.items.find? fun item => item.key = key

/-- `new TimerItem` and `push_back`. -/
def push [DecidableEq κ] [DecidableEq υ] (s : TimerList κ υ) (callback : κ) (userData : υ)
    (interval nextTick : UInt64) (hnew : s.lookup (callback, userData) = none) :
    TimerList κ υ where
  items := s.items ++ [⟨s.nextId, callback, userData, interval, nextTick⟩]
  nextId := s.nextId + 1
  sorted := by
    rw [List.pairwise_append]
    refine ⟨s.sorted, List.pairwise_singleton _ _, ?_⟩
    intro item hitem new hnew
    rw [List.mem_singleton] at hnew
    exact hnew ▸ s.fresh item hitem
  fresh := by
    intro item hitem
    rcases List.mem_append.mp hitem with hold | hnew
    · exact Nat.lt_succ_of_lt (s.fresh item hold)
    · rw [List.mem_singleton] at hnew
      exact hnew ▸ Nat.lt_succ_self _
  distinct := by
    rw [List.pairwise_append]
    refine ⟨s.distinct, List.pairwise_singleton _ _, ?_⟩
    intro item hitem new hmem
    rw [List.mem_singleton] at hmem
    have hne : ¬ item.key = (callback, userData) := by
      simpa using List.find?_eq_none.mp hnew item hitem
    exact hmem ▸ hne

/-- `CEventDispatch::AddTimer`, at the time `now`. -/
def addTimer [DecidableEq κ] [DecidableEq υ] (s : TimerList κ υ) (callback : κ) (userData : υ)
    (interval now : UInt64) : TimerList κ υ :=
  match h : s.lookup (callback, userData) with
  | some found =>
    s.mapItems
      (fun item =>
        if item.id = found.id then { item with interval := interval, nextTick := now + interval }
        else item)
      fun item => by split <;> exact ⟨rfl, rfl⟩
  | none => s.push callback userData interval (now + interval) h

/-- `CEventDispatch::RemoveTimer`. -/
def removeTimer [DecidableEq κ] [DecidableEq υ] (s : TimerList κ υ) (callback : κ) (userData : υ) :
    TimerList κ υ where
  items := s.items.eraseP fun item => item.key = (callback, userData)
  nextId := s.nextId
  sorted := s.sorted.sublist List.eraseP_sublist
  fresh := fun item hitem => s.fresh item (List.mem_of_mem_eraseP hitem)
  distinct := s.distinct.sublist List.eraseP_sublist

/-- `pItem->next_tick += pItem->interval`. -/
def advance (s : TimerList κ υ) (id : Nat) : TimerList κ υ :=
  s.mapItems
    (fun item =>
      if item.id = id then { item with nextTick := item.nextTick + item.interval } else item)
    fun item => by split <;> exact ⟨rfl, rfl⟩

/-- The item that an iterator stands at. -/
def at? (s : TimerList κ υ) (id : Nat) : Option (TimerItem κ υ) :=
  s.items.find? fun item => item.id = id

/-- The item after that one. -/
def after? (s : TimerList κ υ) (id : Nat) : Option (TimerItem κ υ) :=
  (s.items.dropWhile fun item => item.id ≠ id).tail.head?

end TimerList

/-! ## Callbacks -/

/-- What a callback does with the timers. -/
inductive TimerOp (κ υ : Type)
  | add (callback : κ) (userData : υ) (interval now : UInt64)
  | remove (callback : κ) (userData : υ)
  deriving DecidableEq, Repr

/-- What becomes of a timer in a traversal. -/
inductive TimerEvent
  | reached (id : Nat)
  | fired (id : Nat)
  | rearmed (id : Nat)
  | removed (id : Nat)
  deriving DecidableEq, Repr

/-- What the callbacks do, in each state of the world. -/
abbrev Callbacks (κ υ σ : Type) := σ → κ → υ → List (TimerOp κ υ) × σ

section

variable [DecidableEq κ] [DecidableEq υ]

def TimerList.apply (s : TimerList κ υ) : TimerOp κ υ → TimerList κ υ
  | .add callback userData interval now => s.addTimer callback userData interval now
  | .remove callback userData => s.removeTimer callback userData

/-- The timer that an operation finds in the list. -/
def TimerList.event (s : TimerList κ υ) : TimerOp κ υ → Option TimerEvent
  | .add callback userData _ _ => (s.lookup (callback, userData)).map (.rearmed ·.id)
  | .remove callback userData => (s.lookup (callback, userData)).map (.removed ·.id)

variable {σ : Type}

/-- The list and the world while the loop runs; `log` is no part of the program. -/
structure Traversal (κ υ σ : Type) where
  timers : TimerList κ υ
  world : σ
  log : List TimerEvent

namespace Traversal

def note (t : Traversal κ υ σ) (e : TimerEvent) : Traversal κ υ σ := { t with log := t.log ++ [e] }

def apply (t : Traversal κ υ σ) (op : TimerOp κ υ) : Traversal κ υ σ :=
  { t with timers := t.timers.apply op, log := t.log ++ (t.timers.event op).toList }

/-- The call of the callback. -/
def call (C : Callbacks κ υ σ) (t : Traversal κ υ σ) (item : TimerItem κ υ) : Traversal κ υ σ :=
  let (ops, world) := C t.world item.callback item.userData
  ops.foldl apply { t with world := world }

/-- The body of the loop in `_CheckTimer`, after `it++`. -/
def visit (C : Callbacks κ υ σ) (currTick : UInt64) (t : Traversal κ υ σ) (item : TimerItem κ υ) :
    Traversal κ υ σ :=
  if currTick ≥ item.nextTick then
    call C { t.note (.fired item.id) with timers := t.timers.advance item.id } item
  else t

/-- One pass of the loop. -/
def pass (C : Callbacks κ υ σ) (currTick : UInt64) :
    Traversal κ υ σ × Option Nat → Pass (Traversal κ υ σ × Option Nat) (Traversal κ υ σ) :=
  scan (fun t id => t.timers.at? id) fun t id item =>
    .again (visit C currTick (t.note (.reached id)) item, (t.timers.after? id).map (·.id))

def begin (s : TimerList κ υ) (world : σ) : Traversal κ υ σ × Option Nat :=
  (⟨s, world, []⟩, s.items.head?.map (·.id))

end Traversal

/-- `CEventDispatch::_CheckTimer`, if it ends within `n` passes. -/
def checkTimer (n : Nat) (C : Callbacks κ υ σ) (currTick : UInt64) (s : TimerList κ υ) (world : σ) :
    Option (Traversal κ υ σ) :=
  outOf (Traversal.pass C currTick) n (Traversal.begin s world)

end

end

end Global
end PtpCore
