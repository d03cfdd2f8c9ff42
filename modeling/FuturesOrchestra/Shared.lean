import FuturesOrchestra.Active
import FuturesOrchestra.Notifier
import FuturesOrchestra.Lib.Semaphore
import FuturesOrchestra.Lib.Threads
import Mathlib.Tactic.Simps.Basic

/-!
# The state of a pool

A pool is a set of concurrent processes (submit calls, dispatcher loops, spawned
task wrappers, the notification worker, calls of the other public methods) over
one shared state. This module defines the shared state, the local state of each
kind of process, and the operations on the shared state that several of them
perform. Local variables that are live at a program point are arguments of its
constructor, so a process cannot hold a task or a permit it has given away.

Tasks are named by the order in which `submit` creates them, processes by their
index in the process table.
-/

namespace FuturesOrchestra

open Interleaving

/-- Which of the two managers. -/
inductive PoolKind
  | strict
  | rlxd
deriving DecidableEq, Repr

/-- The parameters of a pool after its constructor has clamped them. -/
structure PoolConfig where
  kind : PoolKind
  permits : Nat
  queueSlots : Nat
  lanes : Nat
  poolName : String
deriving DecidableEq, Repr

/-- `FuturePoolManager::new`: the queue capacity is taken as it is. -/
def PoolConfig.manager (concurrencyLimit queueCapacity : Nat) (poolName : String) : PoolConfig :=
  ⟨.strict, max concurrencyLimit 1, queueCapacity, 1, poolName⟩

/-- `FuturePoolManagerRlxd::new`. -/
def PoolConfig.rlxd (concurrencyLimit queueCapacity dispatchers : Nat) (poolName : String) :
    PoolConfig :=
  ⟨.rlxd, max concurrencyLimit 1, max queueCapacity 1, max dispatchers 1, poolName⟩

/-- One MPSC channel: the queued messages, each with a queue permit of its own,
whether its receiver is alive, and whether the dispatcher task that owned the
receiver has ended. -/
structure Lane where
  items : List Nat
  receiver : Bool
  done : Bool
deriving DecidableEq, Repr

/-- A manager handle: whether it can still be used, and how many calls borrow it. -/
structure ManagerHandle where
  alive : Bool
  borrows : Nat
deriving DecidableEq, Repr

/-- The shared state. `σ` is the semaphore, `R` the result type of the tasks. -/
structure Shared (σ R : Type) where
  clones : List ManagerHandle
  /-- The strong count of `shutdown_guard`. -/
  guards : Nat
  /-- The flag of `shutdown_token`. -/
  token : Bool
  concurrencyGate : σ
  queueGate : σ
  lanes : List Lane
  /-- The queue handles that are neither closed nor dropped, one for each clone. -/
  queueSenders : Nat
  nextLane : Nat
  /-- `active_task_info` of the strict pool. -/
  active : ActiveSlots Nat
  /-- `active_task_info` of the relaxed pool, one shard for each lane. -/
  shards : List (DeferredRegistry Nat)
  nextTaskId : Nat
  tasks : Nat → Task R
  /-- The dispatchers whose join handles are still stored. -/
  joinHandles : List Nat
  notifier : CompletionNotifier

namespace Shared

variable {σ R : Type} [Semaphore σ]

@[simps] def modifyTask (sh : Shared σ R) (t : Nat) (f : Task R → Task R) : Shared σ R :=
  { sh with tasks := fun u => if u = t then f (sh.tasks u) else sh.tasks u }

/-- A call on manager handle `c` returns. -/
@[simps] def unborrow (sh : Shared σ R) (c : Nat) : Shared σ R :=
  { sh with clones := sh.clones.modify c fun h => { h with borrows := h.borrows - 1 } }

/-- `OwnedPermitGuard::drop`. -/
@[simps] def releasePermit (sh : Shared σ R) : Shared σ R :=
  { sh with concurrencyGate := Semaphore.release sh.concurrencyGate }

/-- `Permit::drop` and `QueuePermit::drop`. -/
@[simps] def releaseSlot (sh : Shared σ R) : Shared σ R :=
  { sh with queueGate := Semaphore.release sh.queueGate }

/-- Every receiver of the queue is gone, so `is_closed` answers `true`. -/
def queueClosed (sh : Shared σ R) : Bool := sh.lanes.all fun l => !l.receiver

def isCancelled (sh : Shared σ R) (t : Nat) : Bool := (sh.tasks t).isCancelled

def isFinished (sh : Shared σ R) (t : Nat) : Bool := (sh.tasks t).isFinished

@[simps] def setLane (sh : Shared σ R) (i : Nat) (l : Lane) : Shared σ R :=
  { sh with lanes := sh.lanes.set i l }

@[simps] def setShard (sh : Shared σ R) (i : Nat) (r : DeferredRegistry Nat) : Shared σ R :=
  { sh with shards := sh.shards.set i r }

/-- The completion message for task `t`. -/
@[simps] def sendCompletion (cfg : PoolConfig) (sh : Shared σ R) (t : Nat)
    (status : TaskCompletionStatus) : Shared σ R :=
  { sh with notifier := sh.notifier.send ⟨cfg.poolName, t, status⟩ }

/-- `notification_sink.get().and_then(CompletionSink::sender)`. -/
def lookupSender (sh : Shared σ R) : Shared σ R × Bool :=
  let (n, found) := sh.notifier.lookup
  ({ sh with notifier := n }, found)

/-- A completion sender that was captured, if any, is dropped unused. -/
@[simps] def hangUp (sh : Shared σ R) (sender : Bool) : Shared σ R :=
  { sh with notifier := if sender then sh.notifier.dropSender else sh.notifier }

/-- The manager handles and the dispatcher loops own the sink. When the last of them lets go
of it the pool-wide sender is dropped with it; a loop does so when it drops its receiver. -/
@[simps] def dropSink (sh : Shared σ R) : Shared σ R :=
  { sh with notifier :=
      if sh.guards = 0 ∧ sh.queueClosed = true then sh.notifier.close else sh.notifier }

omit [Semaphore σ] in
theorem dropSink_of_owned {sh : Shared σ R} (h : ¬(sh.guards = 0 ∧ sh.queueClosed = true)) :
    sh.dropSink = sh := by
  rw [dropSink, if_neg h]

omit [Semaphore σ] in
theorem dropSink_of_last {sh : Shared σ R} (hguards : sh.guards = 0)
    (hclosed : sh.queueClosed = true) :
    sh.dropSink = { sh with notifier := sh.notifier.close } := by
  rw [dropSink, if_pos ⟨hguards, hclosed⟩]

/-- A `ManagedTaskInternal` is dropped: its result sender goes, if it still holds it. -/
def dropTask (sh : Shared σ R) (t : Nat) : Shared σ R := sh.modifyTask t Task.dropSender

/-- `submit` creates its task: the core, with the next id of the 64-bit counter,
and the two halves of the result oneshot. -/
@[simps] def createTask (sh : Shared σ R) (labels : Finset TaskLabel) (future : TaskFuture R) :
    Shared σ R :=
  { sh.modifyTask sh.nextTaskId fun _ => Task.new (.ofNat sh.nextTaskId) labels future with
    nextTaskId := sh.nextTaskId + 1 }

/-- `next_lane.fetch_add(1)` on a 64-bit counter. -/
@[simps] def fetchAddLane (sh : Shared σ R) : Shared σ R :=
  { sh with nextLane := (sh.nextLane + 1) % 2 ^ 64 }

end Shared

/-! ## Processes -/

/-- Where a `submit` call stands. The points from `scan` to `spawn` are the fast
path of the relaxed pool; from `route` to `spawn` the call holds a concurrency
permit. At `sendRoute` and `push` it holds a queue slot. -/
inductive SubmitPc
  | checkToken
  | checkClosed
  | create
  | scan (t lane queued : Nat)
  | tryAcquire (t : Nat)
  | route (t : Nat)
  | insertCount (t shard : Nat)
  | insert (t shard : Nat)
  | lookup (t shard : Nat)
  | spawn (t shard : Nat) (sender : Bool)
  | sendToken (t : Nat)
  | sendClosed (t : Nat)
  | selectToken (t : Nat)
  | selectAcquire (t : Nat)
  | sendRoute (t : Nat)
  | push (t lane : Nat)
  | returned (result : Except PoolError Nat)
  | abandoned

/-- One call of `submit` or `submit_future` on manager handle `clone`. -/
structure SubmitCall (R : Type) where
  clone : Nat
  labels : Finset TaskLabel
  future : TaskFuture R
  pc : SubmitPc
  /-- The call unwinds into its caller instead of returning. -/
  unwound : Bool

/-- Where a dispatcher loop stands. `permit` tells whether it holds a concurrency
permit at a point that both pools pass, in the strict pool with a permit and in
the relaxed one without. From `recheck` on, and at the points from `insertCount`
to `spawn`, it holds one. -/
inductive LoopPc
  | top
  | acquire (hand : Option Nat)
  | acquireToken (hand : Option Nat)
  | recheck (hand : Option Nat)
  | recv (permit : Bool)
  | recvToken (permit : Bool)
  | guard (t : Nat)
  | precheck (permit : Bool) (t : Nat)
  | cancelSend (permit : Bool) (t : Nat)
  | cancelLookup (permit : Bool) (t : Nat)
  | cancelNotify (permit : Bool) (t : Nat)
  | cancelDrop (permit : Bool) (t : Nat)
  | insertCount (t : Nat)
  | insert (t : Nat)
  | lookup (t slot : Nat)
  | spawn (t slot : Nat) (sender : Bool)
  | exit (permit : Bool) (hand : Option Nat)
  | drain
  | exited
deriving DecidableEq, Repr

/-- The dispatcher loop of one lane. `panicked` says that it unwinds because a
destructor has panicked in it. -/
structure DispatcherLoop where
  lane : Nat
  pc : LoopPc
  panicked : Bool
deriving DecidableEq, Repr

/-- Where a spawned wrapper stands. At `poll` its `select!` polls the future, for the
first time or when the wrapper was woken; at `selectCancelled` that poll has come
back pending and the cancellation arm is polled. The wrapper holds its concurrency
permit up to and including `closing` (strict pool) or `release` (relaxed pool), and at
`unwind`, where `tx` tells whether it still holds the result sender. -/
inductive WrapperPc (R : Type)
  | poll
  | selectCancelled
  | resolved (value : Option R)
  | outcome (result : Except PoolError R)
  | settled (status : TaskCompletionStatus)
  | closing
  | finish
  | release
  | remove
  | ended
  | unwind (tx : Bool)
  | crashed (registered : Bool)

/-- The future spawned for a task. `slot` is its slot in the registry (strict
pool) or its shard (relaxed pool); `sender` tells whether a completion sender
was captured for it. -/
structure Wrapper (R : Type) where
  task : Nat
  slot : Nat
  sender : Bool
  pc : WrapperPc R

inductive ShutdownMode
  | graceful
  | forcefulCancel
deriving DecidableEq, Repr

/-- Where the `Drop` of a manager handle stands. -/
inductive DropPc
  | count
  | token
  | cancel
  | close
  | closeSink
  | release
  | done
deriving DecidableEq, Repr

/-- Where a `shutdown` call stands. -/
inductive ShutdownPc
  | readToken
  | cancel
  | close
  | sweep (shard : Nat) (tokens : List Nat)
  | cancelAll (tokens : List Nat)
  | count (shard active : Nat)
  | wait
  | takeHandles
  | join (handles : List Nat)
  | closeSink
  | takeNotifier
  | awaitNotifier
  | dropSelf (pc : DropPc)
  | returned
  | abandoned
deriving DecidableEq, Repr

/-- One call of `shutdown`. `closed` tells whether it has closed its queue
handle, `dropped` at which await point its future was dropped, if it was. -/
structure ShutdownCall where
  clone : Nat
  mode : ShutdownMode
  already : Bool
  closed : Bool
  dropped : Option ShutdownPc
  pc : ShutdownPc
deriving DecidableEq, Repr

/-- One run of `Drop for FuturePoolManager` or `Drop for FuturePoolManagerRlxd`. -/
structure DropCall where
  clone : Nat
  closed : Bool
  pc : DropPc
deriving DecidableEq, Repr

inductive LabelCancelPc
  | start
  | sweep (shard : Nat) (tokens : List Nat)
  | cancelAll (tokens : List Nat)
  | returned
deriving DecidableEq, Repr

/-- One call of `cancel_tasks_by_label` or `cancel_tasks_by_labels`. -/
structure LabelCancelCall where
  clone : Nat
  labels : Finset TaskLabel
  pc : LabelCancelPc

inductive AddHandlerPc
  | init
  | push
  | returned
deriving DecidableEq, Repr

/-- One call of `add_completion_handler`. -/
structure AddHandlerCall where
  clone : Nat
  pc : AddHandlerPc
deriving DecidableEq, Repr

/-- Where the notification worker stands. At `lock` it has a message in hand and asks
for the read guard of the handler list. `unwound` says that a panic has ended it. -/
inductive NotifierPc
  | recv
  | token
  | lock (msg : InternalCompletionMessage)
  | deliver (info : TaskCompletionInfo) (rest : List Nat)
  | ended
  | unwound

/-- The notification worker. -/
structure NotifierLoop where
  signaled : Bool
  pc : NotifierPc

/-- A process of the pool. -/
inductive Proc (R : Type)
  | submit (c : SubmitCall R)
  | loop (d : DispatcherLoop)
  | wrapper (w : Wrapper R)
  | notifier (n : NotifierLoop)
  | shutdown (c : ShutdownCall)
  | drop (c : DropCall)
  | labelCancel (c : LabelCancelCall)
  | addHandler (c : AddHandlerCall)

/-- The outcome of one step of a process with local state `L`: the new shared
state, its new local state, and the process it has started, if any. -/
abbrev Next (σ R L : Type) := Option (Shared σ R × L × Option (Proc R))

/-- What wakes a process: its next step, the timeout it is waiting under, the drop of
its future at an await point, or a panic of the handler that it calls, whose payload
may have a panicking destructor. -/
inductive Signal
  | step
  | timeout
  | abandon
  | panic (dropPanics : Bool)
deriving DecidableEq, Repr

end FuturesOrchestra
