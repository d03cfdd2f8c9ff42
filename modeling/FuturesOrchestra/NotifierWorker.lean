import FuturesOrchestra.Shared
import FuturesOrchestra.Lib.Guards

/-!
# The notification worker and its handlers

`run_notification_worker_loop` with the bodies of the handlers, next to any number of threads
that make calls of the manager, in atomic steps that take or give back one lock each. The pool
runs its notifier with handlers that make no calls; here a handler makes calls, and may panic
between them.
-/

namespace FuturesOrchestra

open Interleaving

/-- The locks around the notifier: the initialiser of the `OnceLock`, `internal_state_for_init`,
the list of the handlers, and the registry. The registry of the strict pool is shard 0. -/
inductive LockName
  | cell
  | init
  | handlers
  | registry (shard : Nat)
deriving DecidableEq, Repr

/-- The synchronous public calls of a manager and of a task handle. A handler is named by a
number. -/
inductive ManagerCall
  | addCompletionHandler (handler : Nat)
  | cancelTasksByLabels (labels : Finset TaskLabel)
  | activeTaskCount
  | queuedTaskCount
  | cancel (t : Nat)
deriving DecidableEq

/-- Where a call stands. A thread holds a guard between a `Lock` or a load of the registry and
the step after it. -/
inductive CallPc
  | getOrInit (handler : Nat)
  | initLock (handler : Nat)
  | initHeld (handler : Nat)
  | cellHeld (handler : Nat)
  | nameLock (handler : Nat)
  | nameHeld (handler : Nat)
  | writeLock (handler : Nat)
  | writeHeld (handler : Nat)
  | sweep (shard : Nat)
  | sweepHeld (shard : Nat)
  | count
  | countHeld
  | modify (shard : Nat)
  | modifyHeld (shard : Nat)
  | take
  | takeHeld
  | load
  | returned
deriving DecidableEq, Repr

/-- Where the worker stands. `lock` waits for the read guard of the handler list with a message
in hand; the list of handlers is what `handlers_guard.iter()` has not given out yet. In `body` a
handler runs, with a call in progress (`returned` when there is none) and those to come.
`unwound` says that a panic has ended the worker. -/
inductive WorkerPc
  | recv
  | token
  | lock (msg : InternalCompletionMessage)
  | deliver (info : TaskCompletionInfo) (rest : List Nat)
  | body (info : TaskCompletionInfo) (rest : List Nat) (call : CallPc) (calls : List ManagerCall)
  | ended
  | unwound
deriving DecidableEq

/-- The worker with its `pool_shutdown_signaled_once`. -/
structure WorkerLoop where
  signaled : Bool
  pc : WorkerPc
deriving DecidableEq

inductive NotifierProc
  | worker (w : WorkerLoop)
  | caller (pc : CallPc)
deriving DecidableEq

/-- What the threads share. `sent` is every message that was ever sent and `taken` how many of
them the worker has received; `invocations` is what the worker has done so far. -/
structure NotifierState where
  initialized : Bool
  guards : List (Guard LockName)
  handlers : List Nat
  senders : Nat
  sent : List InternalCompletionMessage
  taken : Nat
  token : Bool
  workerDone : Bool
  invocations : List (Nat × TaskCompletionInfo)
deriving DecidableEq

namespace NotifierState

def new : NotifierState := ⟨false, [], [], 0, [], 0, false, false, []⟩

/-- Thread `pid` takes a guard, or waits for it. -/
def acquire (sh : NotifierState) (pid : Nat) (lock : LockName) (mode : GuardMode) :
    Option NotifierState :=
  if Guard.free sh.guards lock mode then
    some { sh with guards := ⟨pid, lock, mode⟩ :: sh.guards }
  else none

def release (sh : NotifierState) (pid : Nat) (lock : LockName) (mode : GuardMode) :
    NotifierState :=
  { sh with guards := Guard.release pid lock mode sh.guards }

end NotifierState

/-- What a registration of a handler, or another call, does first. -/
def ManagerCall.start (kind : PoolKind) : ManagerCall → CallPc
  | .addCompletionHandler h => .getOrInit h
  | .cancelTasksByLabels labels => if labels = ∅ then .returned else .sweep 0
  | .activeTaskCount =>
    match kind with
    | .strict => .count
    | .rlxd => .load
  | .queuedTaskCount | .cancel _ => .load

/-- How many shards a sweep reads. -/
def PoolConfig.shards (cfg : PoolConfig) : Nat :=
  match cfg.kind with
  | .strict => 1
  | .rlxd => cfg.lanes

/-- One step of a call that thread `pid` makes. -/
def CallPc.step (cfg : PoolConfig) (pid : Nat) (sh : NotifierState) :
    CallPc → Option (NotifierState × CallPc × Option NotifierProc)
  -- `ensure_worker_initialized`
  | .getOrInit h =>
    if sh.initialized then some (sh, .nameLock h, none)
    else (sh.acquire pid .cell .write).map fun sh => (sh, .initLock h, none)
  | .initLock h => (sh.acquire pid .init .write).map fun sh => (sh, .initHeld h, none)
  | .initHeld h =>
    some ({ sh.release pid .init .write with senders := 1 }, .cellHeld h,
      some (.worker ⟨false, .recv⟩))
  | .cellHeld h =>
    some ({ sh.release pid .cell .write with initialized := true }, .nameLock h, none)
  -- the rest of `add_handler`
  | .nameLock h => (sh.acquire pid .init .write).map fun sh => (sh, .nameHeld h, none)
  | .nameHeld h => some (sh.release pid .init .write, .writeLock h, none)
  | .writeLock h => (sh.acquire pid .handlers .write).map fun sh => (sh, .writeHeld h, none)
  | .writeHeld h =>
    some ({ sh.release pid .handlers .write with handlers := sh.handlers ++ [h] }, .returned, none)
  -- `tokens_matching` on each shard; the flags are raised afterwards, without a lock
  | .sweep i =>
    if i < cfg.shards then
      (sh.acquire pid (.registry i) .read).map fun sh => (sh, .sweepHeld i, none)
    else some (sh, .returned, none)
  | .sweepHeld i => some (sh.release pid (.registry i) .read, .sweep (i + 1), none)
  -- `ActiveSlots::len` of the strict pool
  | .count => (sh.acquire pid (.registry 0) .read).map fun sh => (sh, .countHeld, none)
  | .countHeld => some (sh.release pid (.registry 0) .read, .returned, none)
  -- a dispatcher or a wrapper changes the registry
  | .modify i => (sh.acquire pid (.registry i) .write).map fun sh => (sh, .modifyHeld i, none)
  | .modifyHeld i => some (sh.release pid (.registry i) .write, .returned, none)
  -- `await_shutdown` takes the join handle of the worker
  | .take => (sh.acquire pid .init .write).map fun sh => (sh, .takeHeld, none)
  | .takeHeld => some (sh.release pid .init .write, .returned, none)
  | .load => some (sh, .returned, none)
  | .returned => none

/-- What a worker step is: the next statement, or a panic in the handler that runs, whose
payload may have a panicking destructor. -/
inductive WorkerSignal
  | step
  | panic (dropPanics : Bool)
deriving DecidableEq, Repr

namespace WorkerLoop

def goto (w : WorkerLoop) (pc : WorkerPc) : WorkerLoop := { w with pc := pc }

variable (cfg : PoolConfig) (core : Nat → TaskCore) (body : Nat → List ManagerCall)

/-- `CompletionNotifier::run_notification_worker_loop`, by thread `pid`. `core` gives the control
block a message shares, `body` the calls a handler makes. -/
def step (pid : Nat) (sh : NotifierState) (w : WorkerLoop) :
    Option (NotifierState × WorkerLoop × Option NotifierProc) :=
  match w.pc with
  | .recv =>
    match sh.sent[sh.taken]? with
    | some msg => some ({ sh with taken := sh.taken + 1 }, w.goto (.lock msg), none)
    | none =>
      if sh.senders = 0 then some ({ sh with workerDone := true }, w.goto .ended, none)
      else some (sh, w.goto .token, none)
  | .token => some (sh, { w with signaled := w.signaled || sh.token, pc := .recv }, none)
  -- without handlers the message is dropped: `continue` gives the guard back
  | .lock msg =>
    (sh.acquire pid .handlers .read).map fun sh' =>
      (sh', w.goto (.deliver (msg.publicInfo (core msg.core)) sh.handlers), none)
  | .deliver info (h :: rest) =>
    some ({ sh with invocations := sh.invocations ++ [(h, info)] },
      w.goto (.body info rest .returned (body h)), none)
  | .deliver _ [] => some (sh.release pid .handlers .read, w.goto .recv, none)
  | .body info rest .returned (c :: calls) =>
    some (sh, w.goto (.body info rest (c.start cfg.kind) calls), none)
  | .body info rest .returned [] => some (sh, w.goto (.deliver info rest), none)
  | .body info rest call calls =>
    (call.step cfg pid sh).map fun r => (r.1, w.goto (.body info rest r.2.1 calls), r.2.2)
  | .ended | .unwound => none

/-- The handler that runs panics between two of its calls. `catch_unwind` stops the panic, but
its payload is dropped outside: a panic of the payload's destructor unwinds the worker, which
gives the guard back and drops the receiver of the queue. -/
def panicked (pid : Nat) (sh : NotifierState) (w : WorkerLoop) (dropPanics : Bool) :
    Option (NotifierState × WorkerLoop) :=
  match w.pc with
  | .body info rest .returned _ =>
    if dropPanics then
      some ({ sh.release pid .handlers .read with workerDone := true }, w.goto .unwound)
    else some (sh, w.goto (.deliver info rest))
  | _ => none

end WorkerLoop

/-- What the outside can do: call the manager, change the registry, wait for the worker, send
messages with the senders it has, and cancel the pool's token. -/
inductive NotifierCall
  | manager (call : ManagerCall)
  | modifyRegistry (shard : Nat)
  | awaitShutdown
  | cloneSender
  | dropSender
  | send (msg : InternalCompletionMessage)
  | cancelToken
deriving DecidableEq

def NotifierCall.enter (kind : PoolKind) (sh : NotifierState) :
    NotifierCall → Option (NotifierState × Option NotifierProc)
  | .manager call => some (sh, some (.caller (call.start kind)))
  | .modifyRegistry i => some (sh, some (.caller (.modify i)))
  | .awaitShutdown => some (sh, some (.caller .take))
  | .cloneSender =>
    if sh.senders = 0 then none else some ({ sh with senders := sh.senders + 1 }, none)
  | .dropSender =>
    if sh.senders = 0 then none else some ({ sh with senders := sh.senders - 1 }, none)
  -- the send fails once the worker has dropped the receiver
  | .send msg =>
    if sh.senders = 0 then none
    else if sh.workerDone then some (sh, none)
    else some ({ sh with sent := sh.sent ++ [msg] }, none)
  | .cancelToken => some ({ sh with token := true }, none)

def NotifierProc.run (cfg : PoolConfig) (core : Nat → TaskCore) (body : Nat → List ManagerCall) :
    WorkerSignal → Nat → NotifierState → NotifierProc →
      Option (NotifierState × NotifierProc × Option NotifierProc)
  | .step, pid, sh, .worker w =>
    (w.step cfg core body pid sh).map fun r => (r.1, .worker r.2.1, r.2.2)
  | .panic dropPanics, pid, sh, .worker w =>
    (w.panicked pid sh dropPanics).map fun r => (r.1, .worker r.2, none)
  | .step, pid, sh, .caller pc => (pc.step cfg pid sh).map fun r => (r.1, .caller r.2.1, r.2.2)
  | .panic _, _, _, .caller _ => none

abbrev NotifierSystem := Threads NotifierState NotifierProc

abbrev NotifierEvent := Event WorkerSignal NotifierCall

/-- The runs of the notifier of a pool `cfg`. -/
def notifierMachine (cfg : PoolConfig) (core : Nat → TaskCore) (body : Nat → List ManagerCall) :
    Machine NotifierSystem NotifierEvent :=
  Program.machine ⟨NotifierProc.run cfg core body, fun c sh => c.enter cfg.kind sh⟩
    ⟨.new, []⟩

end FuturesOrchestra
