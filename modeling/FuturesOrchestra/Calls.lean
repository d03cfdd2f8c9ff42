import FuturesOrchestra.Shared

/-!
# The other calls on a manager, and the notification worker

`shutdown`, the `Drop` of a manager handle, label cancellation, handler
registration and the loop of the notification worker. They are the same code in
both pools but for the registry they read.
-/

namespace FuturesOrchestra

open Interleaving

variable {σ R : Type} [Semaphore σ]

/-- One step of the `Drop` of a manager handle, whose queue handle may have been
closed before. The last step drops the fields, the sink among them. -/
def Shared.dropManager (sh : Shared σ R) (closed : Bool) : DropPc → Shared σ R × Bool × DropPc
  | .count => (sh, closed, if sh.guards > 1 then .release else .token)
  | .token => (sh, closed, if sh.token then .release else .cancel)
  | .cancel => ({ sh with token := true }, closed, .close)
  | .close =>
    (if closed then sh else { sh with queueSenders := sh.queueSenders - 1 }, true, .closeSink)
  | .closeSink => ({ sh with notifier := sh.notifier.close }, closed, .release)
  | .release =>
    (({ sh with
        guards := sh.guards - 1
        queueSenders :=
          if closed then sh.queueSenders else sh.queueSenders - 1 } : Shared σ R).dropSink,
      true, .done)
  | .done => (sh, closed, .done)

namespace DropCall

/-- `Drop for FuturePoolManager` and `Drop for FuturePoolManagerRlxd`. -/
def step (sh : Shared σ R) (c : DropCall) : Next σ R DropCall :=
  if c.pc = .done then none
  else
    let (sh', closed, pc) := sh.dropManager c.closed c.pc
    some (sh', { c with closed := closed, pc := pc }, none)

end DropCall

/-- What one locked read of the registry returns: all tokens of the strict
registry, or those of one shard. `none` says that there is no shard left. -/
def Shared.readTokens (cfg : PoolConfig) (sh : Shared σ R) (shard : Nat) : Option (List Nat) :=
  match cfg.kind with
  | .strict => if shard = 0 then some sh.active.allTokens else none
  | .rlxd => (sh.shards[shard]?).map (·.allTokens sh.isFinished)

/-- What one read of the active count returns, in the same way. -/
def Shared.readLen (cfg : PoolConfig) (sh : Shared σ R) (shard : Nat) : Option Nat :=
  match cfg.kind with
  | .strict => if shard = 0 then some sh.active.len else none
  | .rlxd => (sh.shards[shard]?).map (·.len)

namespace ShutdownCall

def goto (c : ShutdownCall) (pc : ShutdownPc) : ShutdownCall := { c with pc := pc }

/-- `shutdown`. The registry and the active count are read shard by shard; the
count is read once up front and again on every tick of the wait. -/
def step (cfg : PoolConfig) (sh : Shared σ R) (c : ShutdownCall) : Next σ R ShutdownCall :=
  match c.pc with
  | .readToken =>
    some (sh, { c with already := sh.token, pc := if sh.token then .count 0 0 else .cancel }, none)
  | .cancel => some ({ sh with token := true }, c.goto .close, none)
  | .close =>
    some ({ sh with queueSenders := sh.queueSenders - 1 },
      { c with closed := true, pc := if c.mode = .forcefulCancel then .sweep 0 [] else .count 0 0 },
      none)
  | .sweep shard tokens =>
    match sh.readTokens cfg shard with
    | some found => some (sh, c.goto (.sweep (shard + 1) (tokens ++ found)), none)
    | none => some (sh, c.goto (.cancelAll tokens), none)
  | .cancelAll (t :: tokens) => some (sh.modifyTask t Task.cancel, c.goto (.cancelAll tokens), none)
  | .cancelAll [] => some (sh, c.goto (.count 0 0), none)
  | .count shard active =>
    match sh.readLen cfg shard with
    | some n => some (sh, c.goto (.count (shard + 1) (active + n)), none)
    | none => some (sh, c.goto (if active = 0 then .takeHandles else .wait), none)
  | .wait => some (sh, c.goto (.count 0 0), none)
  | .takeHandles => some ({ sh with joinHandles := [] }, c.goto (.join sh.joinHandles), none)
  | .join (lane :: handles) =>
    match sh.lanes[lane]? with
    | some ⟨_, _, true⟩ => some (sh, c.goto (.join handles), none)
    | _ => none
  | .join [] => some (sh, c.goto (if c.already then .takeNotifier else .closeSink), none)
  | .closeSink => some ({ sh with notifier := sh.notifier.close }, c.goto .takeNotifier, none)
  | .takeNotifier =>
    if sh.notifier.workerHandle then
      some ({ sh with notifier := { sh.notifier with workerHandle := false } },
        c.goto .awaitNotifier, none)
    else some (sh, c.goto (.dropSelf .count), none)
  | .awaitNotifier =>
    if sh.notifier.workerDone then some (sh, c.goto (.dropSelf .count), none) else none
  | .dropSelf .done =>
    some (sh, c.goto (if c.dropped.isSome then .abandoned else .returned), none)
  | .dropSelf pc =>
    let (sh', closed, pc) := sh.dropManager c.closed pc
    some (sh', { c with closed := closed, pc := .dropSelf pc }, none)
  | .returned | .abandoned => none

/-- One of the timeouts of `shutdown` fires. -/
def timeout (sh : Shared σ R) (c : ShutdownCall) : Next σ R ShutdownCall :=
  match c.pc with
  | .wait => some (sh, c.goto .takeHandles, none)
  | .join (_ :: handles) => some (sh, c.goto (.join handles), none)
  | .awaitNotifier => some (sh, c.goto (.dropSelf .count), none)
  | _ => none

/-- The future of the call is dropped at one of its await points. -/
def abandon (sh : Shared σ R) (c : ShutdownCall) : Next σ R ShutdownCall :=
  match c.pc with
  | .wait | .join (_ :: _) | .awaitNotifier =>
    some (sh, { c with dropped := some c.pc, pc := .dropSelf .count }, none)
  | _ => none

end ShutdownCall

namespace LabelCancelCall

def goto (c : LabelCancelCall) (pc : LabelCancelPc) : LabelCancelCall := { c with pc := pc }

/-- `cancel_tasks_by_labels_internal`. -/
def step (cfg : PoolConfig) (sh : Shared σ R) (c : LabelCancelCall) : Next σ R LabelCancelCall :=
  match c.pc with
  | .start =>
    if c.labels = ∅ then some (sh.unborrow c.clone, c.goto .returned, none)
    else some (sh, c.goto (.sweep 0 []), none)
  | .sweep shard tokens =>
    match sh.readTokens cfg shard with
    | some found =>
      let matched := found.filter fun t => ¬ Disjoint (sh.tasks t).core.labels c.labels
      some (sh, c.goto (.sweep (shard + 1) (tokens ++ matched)), none)
    | none => some (sh, c.goto (.cancelAll tokens), none)
  | .cancelAll (t :: tokens) => some (sh.modifyTask t Task.cancel, c.goto (.cancelAll tokens), none)
  | .cancelAll [] => some (sh.unborrow c.clone, c.goto .returned, none)
  | .returned => none

end LabelCancelCall

namespace AddHandlerCall

/-- `CompletionNotifier::add_handler`; the handler is named by `pid`. The push
needs the write lock, so it waits while the worker holds the read guard. -/
def step (pid : Nat) (sh : Shared σ R) (c : AddHandlerCall) : Next σ R AddHandlerCall :=
  match c.pc with
  | .init =>
    let (n, started) := sh.notifier.ensureWorkerInitialized
    some ({ sh with notifier := n }, { c with pc := .push },
      if started then some (.notifier ⟨false, .recv⟩) else none)
  | .push =>
    if sh.notifier.reading then none
    else
      let n := { sh.notifier with handlers := sh.notifier.handlers ++ [pid] }
      some (({ sh with notifier := n }).unborrow c.clone, { c with pc := .returned }, none)
  | .returned => none

end AddHandlerCall

namespace NotifierLoop

def goto (n : NotifierLoop) (pc : NotifierPc) : NotifierLoop := { n with pc := pc }

/-- `CompletionNotifier::run_notification_worker_loop`. The handlers are called
under the read guard. -/
def step (sh : Shared σ R) (n : NotifierLoop) : Next σ R NotifierLoop :=
  match n.pc with
  | .recv =>
    match sh.notifier.sent[sh.notifier.taken]? with
    | some msg =>
      some ({ sh with notifier := { sh.notifier with taken := sh.notifier.taken + 1 } },
        n.goto (.lock msg), none)
    | none =>
      if sh.notifier.senders = 0 then
        some ({ sh with notifier := { sh.notifier with workerDone := true } }, n.goto .ended, none)
      else some (sh, n.goto .token, none)
  | .token =>
    some (sh, { n with signaled := n.signaled || sh.token, pc := .recv }, none)
  -- without handlers the message is dropped: `continue` gives the guard back
  | .lock msg =>
    if sh.notifier.handlers = [] then some (sh, n.goto .recv, none)
    else
      some ({ sh with notifier := { sh.notifier with reading := true } },
        n.goto (.deliver (msg.publicInfo (sh.tasks msg.core).core) sh.notifier.handlers), none)
  | .deliver info (h :: rest) =>
    some ({ sh with notifier := sh.notifier.invoke h info }, n.goto (.deliver info rest), none)
  | .deliver _ [] =>
    some ({ sh with notifier := { sh.notifier with reading := false } }, n.goto .recv, none)
  | .ended | .unwound => none

/-- The handler that is called next panics. `catch_unwind` stops the panic, but its payload
is dropped outside: a panic of the payload's destructor unwinds the worker, which gives the
guard back and drops the receiver of the queue. -/
def panicked (sh : Shared σ R) (n : NotifierLoop) (dropPanics : Bool) : Next σ R NotifierLoop :=
  match n.pc with
  | .deliver info (h :: rest) =>
    let called := sh.notifier.invoke h info
    if dropPanics then
      some ({ sh with notifier := { called with reading := false, workerDone := true } },
        n.goto .unwound, none)
    else some ({ sh with notifier := called }, n.goto (.deliver info rest), none)
  | _ => none

end NotifierLoop

end FuturesOrchestra
