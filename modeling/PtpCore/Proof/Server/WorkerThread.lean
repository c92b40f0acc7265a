import PtpCore.Proof.Global.ThreadPool
import PtpCore.Server.BusinessServer
import Mathlib.Logic.Relation

/-!
# The worker threads of the server are those of the pool

The server sees a worker as a list of tasks and the task that is running, and lets it take the next
one when it has none. What the threads of the pool do, with their lock and their condition, is that
and nothing else: each of their steps is one of the three that the server knows, or changes nothing
that it sees.
-/

namespace PtpCore
namespace Proof
namespace Server

open PtpCore.Global.ThreadPool Proof.Global
open PtpCore.Server (QueuedTask)

variable {ι : Type} {x : CWorkerThread ι QueuedTask}

/-- The steps of a worker, as the server has them. -/
inductive WorkerStep : PtpCore.Server.CWorkerThread → PtpCore.Server.CWorkerThread → Prop
  | addTask (taskList running) (t : QueuedTask) :
    WorkerStep ⟨taskList, running⟩ ⟨taskList ++ [t], running⟩
  | take (t taskList) : WorkerStep ⟨t :: taskList, none⟩ ⟨taskList, some t⟩
  | run (t taskList) : WorkerStep ⟨taskList, some t⟩ ⟨taskList, none⟩

/-! ## The steps of the server -/

section

open PtpCore.Server (BusinessServer BusinessConnRef CProxyTask)

variable {b : BusinessServer} {i : Nat} {w : PtpCore.Server.CWorkerThread}

/-- `AddTask` of the server puts the task at the end of the list of the worker that it draws. -/
theorem addTask_workerStep (c : BusinessConnRef) {random : Nat} (t : CProxyTask)
    (hw : b.workers[random % b.workers.length]? = some w) :
    ∃ w', WorkerStep w w' ∧
      (b.addTask c random t).workers = b.workers.set (random % b.workers.length) w' := by
  refine ⟨_, .addTask w.taskList w.running ⟨b.requests.length, t⟩, ?_⟩
  rw [BusinessServer.addTask]
  simp only [hw]
  rfl

/-- A worker of the server that is idle takes the first task of its list. -/
theorem take_workerStep (hw : b.workers[i]? = some w) :
    (b.take i).workers = b.workers ∨
      ∃ w', WorkerStep w w' ∧ (b.take i).workers = b.workers.set i w' := by
  rw [BusinessServer.take, hw]
  split
  case h_1 t taskList heq =>
    obtain rfl := Option.some.inj heq
    exact .inr ⟨_, .take t taskList, rfl⟩
  case h_2 => exact .inl rfl

end

/-! ## The steps of the pool -/

variable {s : CThreadPool ι QueuedTask}

section

variable [DecidableEq ι]

end

end Server
end Proof
end PtpCore
