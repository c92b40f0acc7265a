import PtpCore.Global.ThreadPool
import PtpCore.Lib.Run

/-!
# Every task of the pool is run

However the steps of the threads fall between one another, each worker runs the tasks of its list
once each and in the order in which they came in, and takes none from an empty list. A worker sleeps
beside a task only while the thread that put it there still has the lock and is about to signal. So
no task is left for good: from every state, the threads that are under way can bring it to its turn.
-/

namespace PtpCore
namespace Proof
namespace Global

open Lib PtpCore.Global.ThreadPool

variable {ι τ : Type}

/-- The worker has the lock. -/
def inside : WorkerAt τ → Prop
  | .test | .front | .popFront _ | .unlock _ => True
  | _ => False

/-- The thread has the lock of `w`. -/
def insideOf (w : Nat) : PusherAt τ → Prop
  | .pushBack v _ | .signal v | .unlock v => v = w
  | _ => False

/-- The task that was taken and is not done. -/
def inHand : WorkerAt τ → List τ
  | .unlock pTask | .run pTask => [pTask]
  | _ => []

/-- The worker that a thread is busy with. -/
def target : PusherAt τ → Option Nat
  | .idle => none
  | .lock w _ | .pushBack w _ | .signal w | .unlock w => some w

/-- What holds of a worker between any two steps. -/
structure WorkerInv (threads : ι → PusherAt τ) (w : Nat) (x : CWorkerThread ι τ) : Prop where
  worker : x.owner = some .worker ↔ inside x.pos
  thread : ∀ i, x.owner = some (.thread i) ↔ insideOf w (threads i)
  front : x.pos = .front → x.taskList ≠ []
  popFront : ∀ pTask, x.pos = .popFront pTask → x.taskList.head? = some pTask
  account : x.pushed = x.ran ++ inHand x.pos ++ x.taskList
  awake : x.pos = .asleep → x.taskList ≠ [] → ∃ i, threads i = .signal w

structure PoolInv (s : CThreadPool ι τ) : Prop where
  defined : s.undefined = false
  workers : ∀ w, WorkerInv s.threads w (s.workers w)
  valid : ∀ i w, target (s.threads i) = some w → w < s.workerSize

variable {threads : ι → PusherAt τ} {w : Nat} {x : CWorkerThread ι τ}

/-! ## The worker -/

theorem lockedBy_none (o : Owner ι) (h : x.owner = none) :
    x.lockedBy o = some { x with owner := some o } := by
  rw [CWorkerThread.lockedBy, h]

theorem lockedBy_some (o : Owner ι) {o' : Owner ι} (h : x.owner = some o') :
    x.lockedBy o = none := by
  rw [CWorkerThread.lockedBy, h]

/-- The worker takes the lock. -/
theorem WorkerInv.lock (h : WorkerInv threads w x) (hnone : x.owner = none)
    (hhand : inHand x.pos = []) :
    WorkerInv threads w { x with owner := some .worker, pos := .test } where
  worker := ⟨fun _ => trivial, fun _ => rfl⟩
  thread i := by
    rw [← h.thread i, hnone]
    exact ⟨nofun, nofun⟩
  front := nofun
  popFront := nofun
  account := by
    rw [h.account, hhand]
    rfl
  awake := nofun

/-- The worker gives up the lock. -/
theorem WorkerInv.unlock (h : WorkerInv threads w x) (hin : inside x.pos) {pos : WorkerAt τ}
    (hout : ¬inside pos) (hhand : inHand pos = inHand x.pos)
    (hempty : pos = .asleep → x.taskList = []) :
    WorkerInv threads w { x with owner := none, pos := pos } where
  worker := ⟨nofun, fun hpos => absurd hpos hout⟩
  thread i := by
    rw [← h.thread i, h.worker.mpr hin]
    exact ⟨nofun, nofun⟩
  front hpos := by
    rw [show pos = .front from hpos] at hout
    exact absurd trivial hout
  popFront pTask hpos := by
    rw [show pos = .popFront pTask from hpos] at hout
    exact absurd trivial hout
  account := by
    rw [h.account, ← hhand]
  awake hpos hne := absurd (hempty hpos) hne

/-- The worker goes on with the lock. -/
theorem WorkerInv.move (h : WorkerInv threads w x) (hin : inside x.pos) {pos : WorkerAt τ}
    {taskList : List τ} (hin' : inside pos) (hfront : pos = .front → taskList ≠ [])
    (hpop : ∀ pTask, pos = .popFront pTask → taskList.head? = some pTask)
    (haccount : inHand pos ++ taskList = inHand x.pos ++ x.taskList) :
    WorkerInv threads w { x with taskList := taskList, pos := pos } where
  worker := ⟨fun _ => hin', fun _ => h.worker.mpr hin⟩
  thread := h.thread
  front := hfront
  popFront := hpop
  account := by
    rw [List.append_assoc, haccount, ← List.append_assoc]
    exact h.account
  awake hpos := by
    rw [show pos = .asleep from hpos] at hin'
    exact hin'.elim

/-- The next step of the worker. It takes no task from an empty list. -/
theorem WorkerInv.execute (h : WorkerInv threads w x) :
    ∃ x', x.execute = some x' ∧ WorkerInv threads w x' := by
  rw [CWorkerThread.execute]
  cases hpos : x.pos with
  | lock | woken =>
    have hhand : inHand x.pos = [] := by rw [hpos]; rfl
    refine ⟨_, rfl, ?_⟩
    cases howner : x.owner with
    | none =>
      rw [lockedBy_none _ howner]
      exact h.lock howner hhand
    | some o =>
      rw [lockedBy_some _ howner]
      exact h
  | test =>
    have hin : inside x.pos := by rw [hpos]; trivial
    refine ⟨_, rfl, ?_⟩
    split
    case isTrue hempty =>
      exact h.unlock hin not_false (by rw [hpos]; rfl) fun _ => List.isEmpty_iff.mp hempty
    case isFalse hne =>
      exact h.move hin trivial (fun _ hnil => hne (List.isEmpty_iff.mpr hnil)) nofun
        (by rw [hpos]; rfl)
  | asleep => exact ⟨x, rfl, h⟩
  | front =>
    have hin : inside x.pos := by rw [hpos]; trivial
    cases hlist : x.taskList with
    | nil => exact absurd hlist (h.front hpos)
    | cons pTask rest =>
      refine ⟨_, rfl, ?_⟩
      exact h.move hin trivial nofun (fun p hp => by rw [WorkerAt.popFront.inj hp]; rfl)
        (by rw [hpos, hlist]; rfl)
  | popFront pTask =>
    have hin : inside x.pos := by rw [hpos]; trivial
    have hhead := h.popFront pTask hpos
    cases hlist : x.taskList with
    | nil =>
      rw [hlist] at hhead
      exact nomatch hhead
    | cons first rest =>
      rw [hlist] at hhead
      obtain rfl := Option.some.inj hhead
      exact ⟨_, rfl, h.move hin trivial nofun nofun (by rw [hpos, hlist]; rfl)⟩
  | unlock pTask =>
    have hin : inside x.pos := by rw [hpos]; trivial
    exact ⟨_, rfl, h.unlock hin not_false (by rw [hpos]; rfl) nofun⟩
  | run pTask =>
    have hout : ¬inside x.pos := by rw [hpos]; exact not_false
    have hworker : x.owner = some .worker ↔ False :=
      ⟨fun howner => absurd (h.worker.mp howner) hout, False.elim⟩
    refine ⟨_, rfl, hworker, h.thread, nofun, nofun, ?_, nofun⟩
    rw [h.account, hpos]
    simp [inHand]

/-- How far a worker is from the end of its list, in steps. -/
def left (x : CWorkerThread ι τ) : Nat :=
  6 * x.taskList.length + match x.pos with
    | .asleep => 0
    | .popFront _ => 2
    | .front => 3
    | .test => 4
    | .lock | .woken => 5
    | .run _ => 6
    | .unlock _ => 7

/-- A worker that has something to do and can get the lock goes on. -/
theorem WorkerInv.execute_left (h : WorkerInv threads w x)
    (hfree : ∀ i, x.owner ≠ some (.thread i)) (hleft : inHand x.pos ++ x.taskList ≠ []) :
    ∃ x', x.execute = some x' ∧ left x' < left x ∧ (∀ i, x'.owner ≠ some (.thread i)) ∧
      x'.pushed = x.pushed := by
  have hnone : ¬inside x.pos → x.owner = none := by
    intro hout
    rcases howner : x.owner with _ | ⟨_ | i⟩
    · rfl
    · exact absurd (h.worker.mp howner) hout
    · exact absurd howner (hfree i)
  rw [CWorkerThread.execute]
  cases hpos : x.pos with
  | lock | woken =>
    rw [hpos] at hnone
    refine ⟨_, rfl, ?_⟩
    rw [lockedBy_none _ (hnone not_false)]
    exact ⟨by simp only [left, hpos]; omega, fun _ => nofun, rfl⟩
  | test =>
    rw [hpos] at hleft
    have hne : ¬x.taskList.isEmpty := fun hempty => hleft (List.isEmpty_iff.mp hempty)
    refine ⟨_, rfl, ?_⟩
    rw [if_neg hne]
    exact ⟨by simp only [left, hpos]; omega, hfree, rfl⟩
  | asleep =>
    -- the thread that is about to signal would have the lock
    rw [hpos] at hleft
    obtain ⟨i, hi⟩ := h.awake hpos hleft
    exact absurd ((h.thread i).mpr (by rw [hi]; exact rfl)) (hfree i)
  | front =>
    cases hlist : x.taskList with
    | nil => exact absurd hlist (h.front hpos)
    | cons pTask rest =>
      exact ⟨_, rfl, by simp only [left, hpos, hlist]; omega, hfree, rfl⟩
  | popFront pTask =>
    have hhead := h.popFront pTask hpos
    cases hlist : x.taskList with
    | nil =>
      rw [hlist] at hhead
      exact nomatch hhead
    | cons first rest =>
      refine ⟨_, rfl, ?_, hfree, rfl⟩
      simp only [left, hpos, hlist, List.tail_cons, List.length_cons]
      omega
  | unlock pTask => exact ⟨_, rfl, by simp only [left, CWorkerThread.unlocked, hpos]; omega,
      fun _ => nofun, rfl⟩
  | run pTask => exact ⟨_, rfl, by simp only [left, hpos]; omega, hfree, rfl⟩

theorem WorkerInv.wake (h : WorkerInv threads w x) : WorkerInv threads w x.wake := by
  rw [CWorkerThread.wake]
  split
  case h_1 hpos =>
    have hout : ¬inside x.pos := by rw [hpos]; exact not_false
    have hworker : x.owner = some .worker ↔ False :=
      ⟨fun howner => absurd (h.worker.mp howner) hout, False.elim⟩
    refine ⟨hworker, h.thread, nofun, nofun, ?_, nofun⟩
    rw [h.account, hpos]
    rfl
  case h_2 => exact h

theorem wake_pos_ne : x.wake.pos ≠ .asleep := by
  rw [CWorkerThread.wake]
  split
  case h_1 => exact nofun
  case h_2 hpos => exact hpos

theorem wake_pushed : x.wake.pushed = x.pushed := by
  rw [CWorkerThread.wake]
  split <;> rfl

/-! ## A thread that puts a task -/

variable {s : CThreadPool ι τ}

theorem setWorker_self : (s.setWorker w x).workers w = x := Function.update_self ..

theorem setWorker_of_ne {v : Nat} (hv : v ≠ w) : (s.setWorker w x).workers v = s.workers v :=
  Function.update_of_ne hv ..

theorem PoolInv.setWorker (h : PoolInv s) (hx : WorkerInv s.threads w x) :
    PoolInv (s.setWorker w x) where
  defined := h.defined
  workers v := by
    by_cases hv : v = w
    · rw [hv, setWorker_self]
      exact hx
    · rw [setWorker_of_ne hv]
      exact h.workers v
  valid := h.valid

theorem start_inv (n : Nat) : PoolInv (start ι τ n) where
  defined := rfl
  workers _ := ⟨⟨nofun, nofun⟩, fun _ => ⟨nofun, nofun⟩, nofun, nofun, rfl, nofun⟩
  valid _ _ := nofun

section

variable [DecidableEq ι] {i : ι} {p : PusherAt τ}

/-- A worker sees nothing of a thread that moves outside of its lock. -/
theorem WorkerInv.setThread (h : WorkerInv threads w x) (hout : ¬insideOf w (threads i))
    (hout' : ¬insideOf w p) : WorkerInv (Function.update threads i p) w x where
  worker := h.worker
  thread j := by
    by_cases hj : j = i
    · subst hj
      rw [Function.update_self, h.thread j]
      exact ⟨fun hin => absurd hin hout, fun hin => absurd hin hout'⟩
    · rw [Function.update_of_ne hj]
      exact h.thread j
  front := h.front
  popFront := h.popFront
  account := h.account
  awake hpos hne := by
    obtain ⟨j, hj⟩ := h.awake hpos hne
    have hji : j ≠ i := by
      rintro rfl
      rw [hj] at hout
      exact hout rfl
    exact ⟨j, by rw [Function.update_of_ne hji, hj]⟩

/-- A thread that has the lock goes on with it. -/
theorem WorkerInv.threadMoves (h : WorkerInv threads w x) (hin : insideOf w (threads i))
    (hin' : insideOf w p) {x' : CWorkerThread ι τ} (howner : x'.owner = x.owner)
    (hpos : x'.pos = x.pos) (haccount : x'.pushed = x'.ran ++ inHand x'.pos ++ x'.taskList)
    (hawake : x'.pos = .asleep → x'.taskList ≠ [] → p = .signal w) :
    WorkerInv (Function.update threads i p) w x' := by
  have howned : x.owner = some (.thread i) := (h.thread i).mpr hin
  have hout : ¬inside x.pos := by
    rw [← h.worker, howned]
    exact nofun
  refine ⟨by rw [howner, hpos]; exact h.worker, fun j => ?_, fun hfront => ?_, fun pTask hpop => ?_,
    haccount, fun hasleep hne => ⟨i, by rw [Function.update_self]; exact hawake hasleep hne⟩⟩
  · rw [howner]
    by_cases hj : j = i
    · subst hj
      rw [Function.update_self]
      exact ⟨fun _ => hin', fun _ => howned⟩
    · rw [Function.update_of_ne hj]
      exact h.thread j
  · rw [← hpos, hfront] at hout
    exact absurd trivial hout
  · rw [← hpos, hpop] at hout
    exact absurd trivial hout

theorem insideOf_target {v : Nat} (h : insideOf v p) : target p = some v := by
  cases p with
  | idle => exact h.elim
  | lock u pTask => exact h.elim
  | pushBack u pTask | signal u | unlock u => exact congrArg some h

/-- The lock goes from nobody to a thread. -/
theorem WorkerInv.threadLocks (h : WorkerInv threads w x) (hnone : x.owner = none)
    (hin : insideOf w p) :
    WorkerInv (Function.update threads i p) w { x with owner := some (.thread i) } where
  worker := by
    rw [← h.worker, hnone]
    exact ⟨nofun, nofun⟩
  thread j := by
    by_cases hj : j = i
    · subst hj
      rw [Function.update_self]
      exact ⟨fun _ => hin, fun _ => rfl⟩
    · rw [Function.update_of_ne hj, ← h.thread j, hnone]
      exact ⟨fun howner => absurd (Owner.thread.inj (Option.some.inj howner)).symm hj, nofun⟩
  front := h.front
  popFront := h.popFront
  account := h.account
  awake hpos hne := by
    obtain ⟨j, hj⟩ := h.awake hpos hne
    have howner : x.owner = some (.thread j) := (h.thread j).mpr (by rw [hj]; exact rfl)
    rw [hnone] at howner
    exact nomatch howner

/-- The thread gives up the lock, after it has signalled. -/
theorem WorkerInv.threadUnlocks (h : WorkerInv threads w x) (hpos : threads i = .unlock w)
    (hout : ¬insideOf w p) : WorkerInv (Function.update threads i p) w x.unlocked := by
  have howned : x.owner = some (.thread i) := (h.thread i).mpr (by rw [hpos]; exact rfl)
  refine ⟨?_, fun j => ?_, h.front, h.popFront, h.account, fun hasleep hne => ?_⟩
  · refine ⟨nofun, fun hin => ?_⟩
    have hworker := h.worker.mpr hin
    rw [howned] at hworker
    exact nomatch hworker
  · by_cases hj : j = i
    · subst hj
      rw [Function.update_self]
      exact ⟨nofun, fun hin => absurd hin hout⟩
    · rw [Function.update_of_ne hj, ← h.thread j, howned]
      exact ⟨nofun, fun howner => absurd (Owner.thread.inj (Option.some.inj howner)).symm hj⟩
  · -- the thread that is about to signal would have the lock as well
    obtain ⟨j, hj⟩ := h.awake hasleep hne
    have hthread : x.owner = some (.thread j) := (h.thread j).mpr (by rw [hj]; exact rfl)
    rw [howned] at hthread
    obtain rfl : i = j := Owner.thread.inj (Option.some.inj hthread)
    rw [hpos] at hj
    exact nomatch hj

/-! ## The pool -/

theorem setThread_self : (s.setThread i p).threads i = p := Function.update_self ..

theorem setThread_of_ne {j : ι} (hj : j ≠ i) : (s.setThread i p).threads j = s.threads j :=
  Function.update_of_ne hj ..

theorem PoolInv.setThread (h : PoolInv s)
    (hworkers : ∀ v, WorkerInv (Function.update s.threads i p) v (s.workers v))
    (hvalid : ∀ v, target p = some v → v < s.workerSize) : PoolInv (s.setThread i p) where
  defined := h.defined
  workers := hworkers
  valid j v hj := by
    by_cases hji : j = i
    · rw [hji, setThread_self] at hj
      exact hvalid v hj
    · rw [setThread_of_ne hji] at hj
      exact h.valid j v hj

/-- A thread moves, with the worker that it is busy with. -/
theorem PoolInv.setBoth (h : PoolInv s) (hold : ∀ v, insideOf v (s.threads i) → v = w)
    (hnew : ∀ v, insideOf v p → v = w) (hvalid : ∀ v, target p = some v → v < s.workerSize)
    (hx : WorkerInv (Function.update s.threads i p) w x) :
    PoolInv ((s.setWorker w x).setThread i p) where
  defined := h.defined
  workers v := by
    by_cases hv : v = w
    · subst hv
      have hself : ((s.setWorker v x).setThread i p).workers v = x := setWorker_self
      rw [hself]
      exact hx
    · have hsame : ((s.setWorker w x).setThread i p).workers v = s.workers v := setWorker_of_ne hv
      rw [hsame]
      exact (h.workers v).setThread (fun hin => hv (hold v hin)) fun hin => hv (hnew v hin)
  valid j v hj := by
    by_cases hji : j = i
    · rw [hji, setThread_self] at hj
      exact hvalid v hj
    · rw [setThread_of_ne hji] at hj
      exact h.valid j v hj

theorem PoolInv.addTask (h : PoolInv s) (hsize : s.workerSize ≠ 0) (random : Nat) (pTask : τ) :
    PoolInv (s.addTask i random pTask) := by
  rw [CThreadPool.addTask]
  split
  case h_2 => exact h
  case h_1 hidle =>
    have hlt : random % s.workerSize < s.workerSize := Nat.mod_lt _ (Nat.pos_of_ne_zero hsize)
    rw [if_neg hsize]
    refine h.setThread (fun v => (h.workers v).setThread ?_ not_false) fun v hv => ?_
    · rw [hidle]
      exact not_false
    · rw [← Option.some.inj hv]
      exact hlt

/-- The steps of `PushTask`. -/
theorem PoolInv.push (h : PoolInv s) : PoolInv (s.push i) := by
  have hvalid := h.valid i
  rw [CThreadPool.push]
  cases hp : s.threads i with
  | idle => exact h
  | lock w pTask =>
    rw [hp] at hvalid
    cases howner : (s.workers w).owner with
    | some o =>
      simp only [lockedBy_some _ howner]
      exact h
    | none =>
      simp only [lockedBy_none _ howner]
      refine h.setBoth (fun v hv => ?_) (fun v hv => hv.symm) hvalid
        ((h.workers w).threadLocks howner rfl)
      rw [hp] at hv
      exact hv.elim
  | pushBack w pTask =>
    have hin : insideOf w (s.threads i) := by rw [hp]; exact rfl
    have hin' : insideOf w (PusherAt.signal w : PusherAt τ) := rfl
    rw [hp] at hvalid
    refine h.setBoth (fun v hv => ?_) (fun v hv => hv.symm) hvalid
      ((h.workers w).threadMoves hin hin' rfl rfl ?_ fun _ _ => rfl)
    · rw [hp] at hv
      exact hv.symm
    · rw [CWorkerThread.pushBack, (h.workers w).account, List.append_assoc _ _ [pTask]]
  | signal w =>
    have hin : insideOf w (s.threads i) := by rw [hp]; exact rfl
    have hin' : insideOf w (PusherAt.unlock w : PusherAt τ) := rfl
    have hwake := (h.workers w).wake
    rw [hp] at hvalid
    refine h.setBoth (fun v hv => ?_) (fun v hv => hv.symm) hvalid
      (hwake.threadMoves hin hin' rfl rfl hwake.account fun hpos => absurd hpos wake_pos_ne)
    rw [hp] at hv
    exact hv.symm
  | unlock w =>
    refine h.setBoth (fun v hv => ?_) (fun v hv => hv.elim) nofun
      ((h.workers w).threadUnlocks hp not_false)
    rw [hp] at hv
    exact hv.symm

theorem PoolInv.step (h : PoolInv s) (hsize : s.workerSize ≠ 0) (e : Event ι τ) :
    PoolInv (s.step e) := by
  cases e with
  | work w =>
    rw [CThreadPool.step]
    split
    · obtain ⟨x', hx', hinv⟩ := (h.workers w).execute
      simp only [hx']
      exact h.setWorker hinv
    · exact h
  | wake w => exact h.setWorker (h.workers w).wake
  | addTask i random pTask => exact h.addTask hsize random pTask
  | push i => exact h.push

theorem push_workerSize : (s.push i).workerSize = s.workerSize := by
  rw [CThreadPool.push]
  split
  case h_2 => split <;> rfl
  all_goals rfl

theorem step_workerSize (e : Event ι τ) : (s.step e).workerSize = s.workerSize := by
  cases e with
  | work w =>
    rw [CThreadPool.step]
    split
    · split <;> rfl
    · rfl
  | wake w => rfl
  | addTask i random pTask =>
    rw [CThreadPool.step, CThreadPool.addTask]
    split
    · split <;> rfl
    · rfl
  | push i => exact push_workerSize

/-- The pool in any run. -/
theorem run_inv {n : Nat} (hn : 0 < n) (es : List (Event ι τ)) :
    PoolInv (es.foldl CThreadPool.step (start ι τ n)) ∧
      (es.foldl CThreadPool.step (start ι τ n)).workerSize = n := by
  have hkeep : ∀ (s : CThreadPool ι τ) (e : Event ι τ), PoolInv s ∧ s.workerSize = n → True →
      PoolInv (s.step e) ∧ (s.step e).workerSize = n := by
    rintro s e ⟨hinv, hsize⟩ -
    exact ⟨hinv.step (by omega) e, (step_workerSize e).trans hsize⟩
  exact EachStep.invariant (fun s => PoolInv s ∧ s.workerSize = n) hkeep ⟨start_inv n, rfl⟩
    (EachStep.of_forall_mem fun _ _ => trivial)

/-- In every run, each worker runs its tasks once each and in the order in which they came in, no
    task is taken from an empty list, one thread at a time is in the lock of a worker, and a worker
    that sleeps beside a task is about to be woken. -/
theorem pool_safe {n : Nat} (hn : 0 < n) (es : List (Event ι τ)) :
    (es.foldl CThreadPool.step (start ι τ n)).undefined = false ∧
      ∀ w, WorkerInv (es.foldl CThreadPool.step (start ι τ n)).threads w
        ((es.foldl CThreadPool.step (start ι τ n)).workers w) := by
  obtain ⟨hinv, -⟩ := run_inv hn es
  exact ⟨hinv.defined, hinv.workers⟩

/-- A thread has put a task, and the worker that was asleep has been woken. -/
def oneTask : List (Event Unit Nat) :=
  [.work 1, .work 1, .addTask () 3 7, .push (), .push (), .push (), .push ()]

theorem pool_safe_woken :
    ((oneTask.foldl CThreadPool.step (start Unit Nat 2)).workers 1).pushed = [7] ∧
      (oneTask.foldl CThreadPool.step (start Unit Nat 2)).undefined = false ∧
        ∀ w, WorkerInv (oneTask.foldl CThreadPool.step (start Unit Nat 2)).threads w
          ((oneTask.foldl CThreadPool.step (start Unit Nat 2)).workers w) :=
  ⟨by decide, pool_safe (by decide) oneTask⟩

/-! ## No task is left -/

/-- The steps of the threads that are under way. -/
def GoesOn : Event ι τ → Prop
  | .work _ | .push _ => True
  | _ => False

/-- No thread that puts a task has the lock of `w`. -/
def Free (s : CThreadPool ι τ) (w : Nat) : Prop := ∀ i, (s.workers w).owner ≠ some (.thread i)

theorem push_of_unlock (hi : s.threads i = .unlock w) :
    (s.push i).workers w = (s.workers w).unlocked := by
  simp only [CThreadPool.push, hi]
  exact setWorker_self

theorem push_of_signal (hi : s.threads i = .signal w) :
    (s.push i).workers w = (s.workers w).wake ∧ (s.push i).threads i = .unlock w := by
  simp only [CThreadPool.push, hi]
  exact ⟨setWorker_self, setThread_self⟩

theorem push_of_pushBack {pTask : τ} (hi : s.threads i = .pushBack w pTask) :
    (s.push i).workers w = (s.workers w).pushBack pTask ∧ (s.push i).threads i = .signal w := by
  simp only [CThreadPool.push, hi]
  exact ⟨setWorker_self, setThread_self⟩

/-- A thread that has the lock gives it up, if it is let go on. -/
theorem exists_free (h : PoolInv s) (w : Nat) :
    ∃ es : List (Event ι τ), (∀ e ∈ es, GoesOn e) ∧ Free (es.foldl CThreadPool.step s) w ∧
      (s.workers w).pushed <+: ((es.foldl CThreadPool.step s).workers w).pushed := by
  by_cases hfree : Free s w
  · exact ⟨[], nofun, hfree, List.prefix_rfl⟩
  rw [Free] at hfree
  push Not at hfree
  obtain ⟨i, hi⟩ := hfree
  have hin := ((h.workers w).thread i).mp hi
  have hgoes : ∀ k, ∀ e ∈ List.replicate k (Event.push i : Event ι τ), GoesOn e := by
    intro k e he
    rw [List.eq_of_mem_replicate he]
    trivial
  have hnone : ∀ t : CThreadPool ι τ, t.threads i = .unlock w →
      Free (t.push i) w ∧ ((t.push i).workers w).pushed = (t.workers w).pushed := by
    intro t ht
    rw [Free, push_of_unlock ht]
    exact ⟨fun _ => nofun, rfl⟩
  cases hp : s.threads i with
  | idle | lock v pTask =>
    rw [hp] at hin
    exact hin.elim
  | unlock v =>
    rw [hp] at hin
    obtain rfl : v = w := hin
    obtain ⟨hend, hpushed⟩ := hnone s hp
    exact ⟨List.replicate 1 (.push i), hgoes 1, hend, hpushed ▸ List.prefix_rfl⟩
  | signal v =>
    rw [hp] at hin
    obtain rfl : v = w := hin
    obtain ⟨hwake, hunlock⟩ := push_of_signal hp
    obtain ⟨hend, hpushed⟩ := hnone (s.push i) hunlock
    rw [hwake, wake_pushed] at hpushed
    exact ⟨List.replicate 2 (.push i), hgoes 2, hend, hpushed ▸ List.prefix_rfl⟩
  | pushBack v pTask =>
    rw [hp] at hin
    obtain rfl : v = w := hin
    obtain ⟨hback, hsignal⟩ := push_of_pushBack hp
    obtain ⟨hwake, hunlock⟩ := push_of_signal hsignal
    obtain ⟨hend, hpushed⟩ := hnone ((s.push i).push i) hunlock
    rw [hwake, wake_pushed, hback] at hpushed
    refine ⟨List.replicate 3 (.push i), hgoes 3, hend, ?_⟩
    exact hpushed ▸ List.prefix_append _ [pTask]

/-- Such a worker comes to the end of its list. -/
theorem exists_ran (h : PoolInv s) (hw : w < s.workerSize) (hfree : Free s w) :
    ∃ es : List (Event ι τ), (∀ e ∈ es, GoesOn e) ∧
      ((es.foldl CThreadPool.step s).workers w).ran = (s.workers w).pushed := by
  induction hk : left (s.workers w) using Nat.strongRecOn generalizing s with
  | ind k ih =>
    by_cases hleft : inHand (s.workers w).pos ++ (s.workers w).taskList = []
    · refine ⟨[], nofun, ?_⟩
      have haccount := (h.workers w).account
      rw [List.append_assoc, hleft, List.append_nil] at haccount
      exact haccount.symm
    · obtain ⟨x', hx', hlt, hfree', hpushed⟩ := (h.workers w).execute_left hfree hleft
      have hstep : s.step (.work w) = s.setWorker w x' := by
        simp only [CThreadPool.step, if_pos hw, hx']
      have hself : (s.step (.work w)).workers w = x' := by
        rw [hstep]
        exact setWorker_self
      have hinv := h.step (Nat.ne_of_gt (Nat.zero_lt_of_lt hw)) (.work w)
      obtain ⟨es, hes, hran⟩ := ih (left x') (by omega) hinv (by rwa [step_workerSize])
        (by rwa [Free, hself]) (by rw [hself])
      refine ⟨.work w :: es, ?_, ?_⟩
      · rintro e (_ | ⟨_, he⟩)
        · trivial
        · exact hes e he
      · rw [List.foldl_cons, hran, hself, hpushed]

/-- No task is left for good: after every run, the threads that are under way can go on so that all
    that came into the list of a worker so far is run, in the order in which it came. -/
theorem every_task_is_run {n : Nat} {w : Nat} (hw : w < n) (es : List (Event ι τ)) :
    ∃ fs : List (Event ι τ), (∀ e ∈ fs, GoesOn e) ∧
      ((es.foldl CThreadPool.step (start ι τ n)).workers w).pushed <+:
        (((es ++ fs).foldl CThreadPool.step (start ι τ n)).workers w).ran := by
  have hn : 0 < n := Nat.zero_lt_of_lt hw
  obtain ⟨hinv, -⟩ := run_inv hn es
  obtain ⟨fs, hfs, hfree, hpushed⟩ := exists_free hinv w
  obtain ⟨hinv', hsize'⟩ := run_inv hn (es ++ fs)
  rw [List.foldl_append] at hinv' hsize'
  obtain ⟨gs, hgs, hran⟩ := exists_ran hinv' (by rwa [hsize']) hfree
  refine ⟨fs ++ gs, ?_, ?_⟩
  · intro e he
    exact (List.mem_append.mp he).elim (hfs e) (hgs e)
  · rw [← List.append_assoc, List.foldl_append, List.foldl_append, hran]
    exact hpushed

theorem every_task_is_run_woken :
    ∃ fs : List (Event Unit Nat), (∀ e ∈ fs, GoesOn e) ∧
      ((oneTask.foldl CThreadPool.step (start Unit Nat 2)).workers 1).pushed <+:
        (((oneTask ++ fs).foldl CThreadPool.step (start Unit Nat 2)).workers 1).ran :=
  every_task_is_run (by decide) oneTask

end

end Global
end Proof
end PtpCore
