import Mathlib.Data.List.Basic
import Mathlib.Logic.Function.Basic

/-!
# The threads of a pool (`ptp_global/ThreadPool.cpp`, `Thread.h`)

Each worker has a list of tasks behind a lock and a condition. `Execute` waits on the condition
while the list is empty, takes the first task and runs it without the lock. `AddTask` draws a
worker, and `PushTask` puts the task at the end of its list and signals, under the lock.

A step here is what a thread does between two points where others may come in. `pthread_cond_wait`
gives up the lock and sleeps in one step; it is woken by a signal or for no reason at all, and takes
the lock again before it returns. A thread whose lock is held by another does not move. The lock may
be taken again by its owner, which no thread does.

`pushed` and `ran` are no part of the program: they are the tasks in the order in which they came
into the list and were run.
-/

namespace PtpCore
namespace Global
namespace ThreadPool

variable {ι τ : Type}

/-- Where a thread is in `CWorkerThread::Execute`. -/
inductive WorkerAt (τ : Type)
  /-- In front of `m_thread_notify.Lock()`. -/
  | lock
  /-- At `while (m_task_list.empty())`. -/
  | test
  /-- Asleep in `m_thread_notify.Wait()`. -/
  | asleep
  /-- In `m_thread_notify.Wait()`, without the lock. -/
  | woken
  | front
  | popFront (pTask : τ)
  | unlock (pTask : τ)
  /-- `pTask->run()`, and what follows it. -/
  | run (pTask : τ)

/-- Where a thread is in `CWorkerThread::PushTask` of a worker. -/
inductive PusherAt (τ : Type)
  | idle
  | lock (w : Nat) (pTask : τ)
  | pushBack (w : Nat) (pTask : τ)
  | signal (w : Nat)
  | unlock (w : Nat)

/-- Who has the lock of a worker. -/
inductive Owner (ι : Type)
  | worker
  | thread (i : ι)

structure CWorkerThread (ι τ : Type) where
  taskList : List τ
  owner : Option (Owner ι)
  pos : WorkerAt τ
  taskCnt : UInt32
  pushed : List τ
  ran : List τ

structure CThreadPool (ι τ : Type) where
  workerSize : Nat
  workers : Nat → CWorkerThread ι τ
  /-- The threads that call `AddTask`. -/
  threads : ι → PusherAt τ
  /-- Something was done that the language does not define. -/
  undefined : Bool

/-- `Init`. -/
def start (ι τ : Type) (workerSize : Nat) : CThreadPool ι τ where
  workerSize := workerSize
  workers _ := ⟨[], none, .lock, 0, [], []⟩
  threads _ := .idle
  undefined := false

namespace CWorkerThread

/-- `Lock`: the owner afterwards, unless another thread has it. -/
def lockedBy (x : CWorkerThread ι τ) (o : Owner ι) : Option (CWorkerThread ι τ) :=
  match x.owner with
  | none => some { x with owner := some o }
  | some _ => none

def unlocked (x : CWorkerThread ι τ) : CWorkerThread ι τ := { x with owner := none }

/-- The next step of `Execute`; `none` where the list is empty and should not be. -/
def execute (x : CWorkerThread ι τ) : Option (CWorkerThread ι τ) :=
  match x.pos with
  | .lock | .woken =>
    some (match x.lockedBy .worker with
    | none => x
    | some x => { x with pos := .test })
  | .test =>
    some (if x.taskList.isEmpty then { x.unlocked with pos := .asleep }
      else { x with pos := .front })
  | .asleep => some x
  | .front => x.taskList.head?.map fun pTask => { x with pos := .popFront pTask }
  | .popFront pTask =>
    if x.taskList.isEmpty then none
    else some { x with taskList := x.taskList.tail, pos := .unlock pTask }
  | .unlock pTask => some { x.unlocked with pos := .run pTask }
  | .run pTask => some { x with pos := .lock, taskCnt := x.taskCnt + 1, ran := x.ran ++ [pTask] }

/-- `Signal`, or no reason. -/
def wake (x : CWorkerThread ι τ) : CWorkerThread ι τ :=
  match x.pos with
  | .asleep => { x with pos := .woken }
  | _ => x

def pushBack (x : CWorkerThread ι τ) (pTask : τ) : CWorkerThread ι τ :=
  { x with taskList := x.taskList ++ [pTask], pushed := x.pushed ++ [pTask] }

end CWorkerThread

inductive Event (ι τ : Type)
  /-- A worker goes on. -/
  | work (w : Nat)
  /-- A worker is woken for no reason. -/
  | wake (w : Nat)
  /-- A thread calls `AddTask`, with what `random()` returns. -/
  | addTask (i : ι) (random : Nat) (pTask : τ)
  /-- A thread goes on with it. -/
  | push (i : ι)

namespace CThreadPool

variable [DecidableEq ι]

def setWorker (s : CThreadPool ι τ) (w : Nat) (x : CWorkerThread ι τ) : CThreadPool ι τ :=
  { s with workers := Function.update s.workers w x }

def setThread (s : CThreadPool ι τ) (i : ι) (p : PusherAt τ) : CThreadPool ι τ :=
  { s with threads := Function.update s.threads i p }

/-- The first step of `AddTask`. There is no remainder by zero. -/
def addTask (s : CThreadPool ι τ) (i : ι) (random : Nat) (pTask : τ) : CThreadPool ι τ :=
  match s.threads i with
  | .idle =>
    if s.workerSize = 0 then { s with undefined := true }
    else s.setThread i (.lock (random % s.workerSize) pTask)
  | _ => s

/-- The next step of `PushTask`. -/
def push (s : CThreadPool ι τ) (i : ι) : CThreadPool ι τ :=
  match s.threads i with
  | .idle => s
  | .lock w pTask =>
    match (s.workers w).lockedBy (.thread i) with
    | none => s
    | some x => (s.setWorker w x).setThread i (.pushBack w pTask)
  | .pushBack w pTask =>
    (s.setWorker w ((s.workers w).pushBack pTask)).setThread i (.signal w)
  | .signal w => (s.setWorker w (s.workers w).wake).setThread i (.unlock w)
  | .unlock w => (s.setWorker w (s.workers w).unlocked).setThread i .idle

def step (s : CThreadPool ι τ) : Event ι τ → CThreadPool ι τ
  | .work w =>
    if w < s.workerSize then
      match (s.workers w).execute with
      | none => { s with undefined := true }
      | some x => s.setWorker w x
    else s
  | .wake w => s.setWorker w (s.workers w).wake
  | .addTask i random pTask => s.addTask i random pTask
  | .push i => s.push i

end CThreadPool

end ThreadPool
end Global
end PtpCore
