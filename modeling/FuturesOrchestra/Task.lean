import Mathlib.Data.Finset.Basic

/-!
# Tasks, their results and their handles

The data of one task: the user's future, the control block `TaskCore` it shares
with its handle, the registry and the completion messages, the result channel,
and what `TaskHandle` reads from it.
-/

namespace FuturesOrchestra

/-- The errors of the pool. -/
inductive PoolError
  | resultChannelError (message : String)
  | resultUnavailable
  | semaphoreClosed
  | queueSendChannelClosed
  | queueReceiveChannelClosed
  | taskPanicked
  | taskCancelled
  | poolShuttingDown
deriving DecidableEq, Repr

/-- A descriptive label for a task. -/
abbrev TaskLabel := String

/-- What one poll of a future does. -/
inductive Poll (R : Type)
  | pending
  | ready (value : R)
  | panicked

/-- A future of the user: the outcome of each of its polls, and which of the
destructors the pool may run on its behalf panic. -/
structure TaskFuture (R : Type) where
  poll : Nat → Poll R
  /-- The destructor of the future itself. -/
  dropPanics : Bool
  /-- The destructor of the value it returns. -/
  resultDropPanics : Bool
  /-- The destructor of the payload of its panic. -/
  payloadDropPanics : Bool

/-- A future that returns `value` at its first poll. -/
def TaskFuture.ready {R : Type} (value : R) : TaskFuture R :=
  ⟨fun _ => .ready value, false, false, false⟩

/-- A future that is never ready. -/
def TaskFuture.never {R : Type} : TaskFuture R := ⟨fun _ => .pending, false, false, false⟩

/-- The flags of `CancelState`. Both are monotone: no operation clears one. -/
structure CancelState where
  cancelled : Bool
  finished : Bool
deriving DecidableEq, Repr

/-- One task's shared control block. -/
structure TaskCore where
  taskId : UInt64
  state : CancelState
  labels : Finset TaskLabel

def TaskCore.new (taskId : UInt64) (labels : Finset TaskLabel) : TaskCore :=
  ⟨taskId, ⟨false, false⟩, labels⟩

def TaskCore.cancel (core : TaskCore) : TaskCore :=
  { core with state := { core.state with cancelled := true } }

def TaskCore.markFinished (core : TaskCore) : TaskCore :=
  { core with state := { core.state with finished := true } }

/-- The sending half of a task's result oneshot: not used yet, used for a
result, or dropped without one. -/
inductive ResultSender (R : Type)
  | live
  | used (result : Except PoolError R)
  | dropped

/-- Whether the sender is gone, so that the receiver resolves. -/
def ResultSender.settled {R : Type} : ResultSender R → Bool
  | .live => false
  | _ => true

/-- A task: its core, its future and how often that was polled, the two halves
of its result oneshot, and whether its `submit` has returned `Ok`. -/
structure Task (R : Type) where
  core : TaskCore
  future : TaskFuture R
  polls : Nat
  sender : ResultSender R
  receiver : Bool
  accepted : Bool

namespace Task

variable {R : Type}

def new (taskId : UInt64) (labels : Finset TaskLabel) (future : TaskFuture R) : Task R :=
  ⟨TaskCore.new taskId labels, future, 0, .live, true, false⟩

/-- The flag `core.is_cancelled()` reads. -/
def isCancelled (task : Task R) : Bool := task.core.state.cancelled

/-- The flag `core.is_finished()` reads. -/
def isFinished (task : Task R) : Bool := task.core.state.finished

def cancel (task : Task R) : Task R := { task with core := task.core.cancel }

def markFinished (task : Task R) : Task R := { task with core := task.core.markFinished }

/-- The result sender is dropped, if it is still there. -/
def dropSender (task : Task R) : Task R :=
  match task.sender with
  | .live => { task with sender := .dropped }
  | _ => task

/-- `tx.send(result)`: the sender is used up whether or not the receiver is
still there. -/
def send (task : Task R) (result : Except PoolError R) : Task R :=
  match task.sender with
  | .live => { task with sender := .used result }
  | _ => task

/-- The handle is dropped or detached, or `submit` fails. -/
def dropReceiver (task : Task R) : Task R := { task with receiver := false }

/-- `submit` returns the handle. -/
def accept (task : Task R) : Task R := { task with accepted := true }

/-- The future is polled once more. -/
def countPoll (task : Task R) : Task R := { task with polls := task.polls + 1 }

/-- The value that the future has returned at its last poll, if that is what
the poll did. -/
def returned (task : Task R) : Option R :=
  match task.polls with
  | 0 => none
  | n + 1 => match task.future.poll n with
    | .ready value => some value
    | _ => none

/-- Whether the last poll of the future panicked. -/
def hasPanicked (task : Task R) : Bool :=
  match task.polls with
  | 0 => false
  | n + 1 => match task.future.poll n with
    | .panicked => true
    | _ => false

/-- What the receiver of a result oneshot reports when every sender is gone. -/
def oneshotDisconnected : String := "channel disconnected (empty and all senders dropped)"

/-- `TaskHandle::await_result`: `none` while it is pending. -/
def awaitResult (task : Task R) : Option (Except PoolError R) :=
  if task.receiver then
    match task.sender with
    | .live => none
    | .used result => some result
    | .dropped => some (.error (.resultChannelError
        ("Task (id: " ++ toString task.core.taskId ++ ") result channel unexpectedly closed: "
          ++ oneshotDisconnected)))
  else some (.error .resultUnavailable)

@[simp] theorem new_sender (i : UInt64) (l : Finset TaskLabel) (f : TaskFuture R) :
    (new i l f).sender = .live := rfl

@[simp] theorem cancel_sender (task : Task R) : task.cancel.sender = task.sender := rfl

@[simp] theorem cancel_isCancelled (task : Task R) : task.cancel.isCancelled = true := rfl

@[simp] theorem markFinished_sender (task : Task R) : task.markFinished.sender = task.sender :=
  rfl

end Task

end FuturesOrchestra
