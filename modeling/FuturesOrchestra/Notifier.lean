import FuturesOrchestra.Task

/-!
# Completion notifications: the data

The completion sink, the channel behind it and the handler list, as the pool and
the notification worker share them. The worker's loop is a process and is
defined with the other processes.
-/

namespace FuturesOrchestra

inductive TaskCompletionStatus
  | success
  | cancelled
  | panicked
  | poolErrorOccurred
deriving DecidableEq, Repr

/-- `From<&Result<R, PoolError>>`. -/
def TaskCompletionStatus.ofResult {R : Type} : Except PoolError R → TaskCompletionStatus
  | .ok _ => .success
  | .error .taskCancelled => .cancelled
  | .error .taskPanicked => .panicked
  | .error _ => .poolErrorOccurred

/-- What a handler is called with. -/
structure TaskCompletionInfo where
  taskId : UInt64
  poolName : String
  labels : Finset TaskLabel
  status : TaskCompletionStatus
deriving DecidableEq

/-- A message of the completion queue. `core` names the task whose control block
the message shares. -/
structure InternalCompletionMessage where
  poolName : String
  core : Nat
  status : TaskCompletionStatus
deriving DecidableEq, Repr

/-- The info the worker builds from a message and the core it refers to. -/
def InternalCompletionMessage.publicInfo (msg : InternalCompletionMessage) (core : TaskCore) :
    TaskCompletionInfo :=
  ⟨core.taskId, msg.poolName, core.labels, msg.status⟩

/-- The three states of the sink: no handler has ever been registered, the cell
holds `Some` sender, the cell holds `None`. -/
inductive CompletionSink
  | unset
  | opened
  | closed
deriving DecidableEq, Repr

/-- The state the notifier shares with the pool. `sent` is every message that
was ever sent and `taken` how many of them the worker has received; `senders`
counts the live senders of the queue, the pool-wide one included. A handler is
named by the call that registered it, and `invocations` is what the worker has
done so far. -/
structure CompletionNotifier where
  sink : CompletionSink
  senders : Nat
  sent : List InternalCompletionMessage
  taken : Nat
  handlers : List Nat
  /-- The worker holds the read guard of the handler list. -/
  reading : Bool
  /-- The worker's join handle is still stored. -/
  workerHandle : Bool
  workerDone : Bool
  invocations : List (Nat × TaskCompletionInfo)

namespace CompletionNotifier

def new : CompletionNotifier := ⟨.unset, 0, [], 0, [], false, false, false, []⟩

/-- `sink.get().and_then(CompletionSink::sender)`: whether a sender was cloned. -/
def lookup (n : CompletionNotifier) : CompletionNotifier × Bool :=
  match n.sink with
  | .opened => ({ n with senders := n.senders + 1 }, true)
  | _ => (n, false)

/-- `sink.get()` and, when the cell is set, `CompletionSink::close`. -/
def close (n : CompletionNotifier) : CompletionNotifier :=
  match n.sink with
  | .opened => { n with sink := .closed, senders := n.senders - 1 }
  | _ => n

/-- `noti_tx.send(msg).await` and the drop of `noti_tx`: the send fails once the
worker has dropped the receiver. -/
def send (n : CompletionNotifier) (msg : InternalCompletionMessage) : CompletionNotifier :=
  if n.workerDone then { n with senders := n.senders - 1 }
  else { n with sent := n.sent ++ [msg], senders := n.senders - 1 }

/-- A cloned sender is dropped unused. -/
def dropSender (n : CompletionNotifier) : CompletionNotifier :=
  { n with senders := n.senders - 1 }

/-- The worker calls handler `h`. -/
def invoke (n : CompletionNotifier) (h : Nat) (info : TaskCompletionInfo) : CompletionNotifier :=
  { n with invocations := n.invocations ++ [(h, info)] }

/-- `ensure_worker_initialized`: whether this call has run the initialiser, which
starts the worker. -/
def ensureWorkerInitialized (n : CompletionNotifier) : CompletionNotifier × Bool :=
  match n.sink with
  | .unset => ({ n with sink := .opened, senders := 1, workerHandle := true }, true)
  | _ => (n, false)

end CompletionNotifier

end FuturesOrchestra
