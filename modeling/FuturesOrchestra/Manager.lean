import FuturesOrchestra.TaskQueue

/-!
# The strict pool

`FuturePoolManager::submit` and its dispatcher loop, with the parts of a
dispatcher loop that the two pools share: the branch for a dequeued task that is
already cancelled, and the way out of the loop.
-/

namespace FuturesOrchestra

open Interleaving

variable {σ R : Type} [Semaphore σ]

namespace DispatcherLoop

def goto (d : DispatcherLoop) (pc : LoopPc) : DispatcherLoop := { d with pc := pc }

/-- Drops task `t`. A panic of its destructor makes the loop unwind; a second one
while it unwinds aborts the process, so there is no next state. -/
def dropTask (sh : Shared σ R) (d : DispatcherLoop) (t : Nat) (pc : LoopPc) :
    Next σ R DispatcherLoop :=
  if (sh.tasks t).future.dropPanics then
    if d.panicked then none
    else some (sh.dropTask t, { d with pc := pc, panicked := true }, none)
  else some (sh.dropTask t, d.goto pc, none)

/-- The branch for a dequeued task whose cancel flag is set: its result is sent,
a completion message follows if there is a sender, the rest of the task and the
permit are dropped and the loop continues. -/
def preCancelled (cfg : PoolConfig) (sh : Shared σ R) (d : DispatcherLoop) :
    Next σ R DispatcherLoop :=
  match d.pc with
  | .cancelSend permit t =>
    some (sh.modifyTask t (Task.send · (.error .taskCancelled)),
      d.goto (.cancelLookup permit t), none)
  | .cancelLookup permit t =>
    let (sh', found) := sh.lookupSender
    some (sh', d.goto (if found then .cancelNotify permit t else .cancelDrop permit t), none)
  | .cancelNotify permit t =>
    some (sh.sendCompletion cfg t .cancelled, d.goto (.cancelDrop permit t), none)
  | .cancelDrop permit t =>
    if (sh.tasks t).future.dropPanics then
      some (sh, { d with pc := .exit permit none, panicked := true }, none)
    else some (if permit then sh.releasePermit else sh, d.goto .top, none)
  | _ => none

/-- The way out of the loop, by `break` or by unwinding: the permit and the task
in hand are dropped, then the loop's share of the sink and the receiver with what is
still queued in it. -/
def leave (sh : Shared σ R) (d : DispatcherLoop) : Next σ R DispatcherLoop :=
  match d.pc with
  | .exit true hand => some (sh.releasePermit, d.goto (.exit false hand), none)
  | .exit false (some t) => d.dropTask sh t (.exit false none)
  | .exit false none =>
    match sh.lanes[d.lane]? with
    | none => none
    | some l =>
      some ((sh.setLane d.lane { l with receiver := false }).dropSink, d.goto .drain, none)
  | .drain =>
    match sh.lanes[d.lane]? with
    | none => none
    | some ⟨t :: items, receiver, done⟩ =>
      d.dropTask (sh.setLane d.lane ⟨items, receiver, done⟩).releaseSlot t .drain
    | some ⟨[], receiver, _⟩ =>
      some (sh.setLane d.lane ⟨[], receiver, true⟩, d.goto .exited, none)
  | _ => none

/-- The end of a dispatch: the completion sender is looked up and the wrapper is
spawned, with the permit. -/
def launch (sh : Shared σ R) (d : DispatcherLoop) : Next σ R DispatcherLoop :=
  match d.pc with
  | .lookup t slot =>
    let (sh', found) := sh.lookupSender
    some (sh', d.goto (.spawn t slot found), none)
  | .spawn t slot sender => some (sh, d.goto .top, some (.wrapper ⟨t, slot, sender, .poll⟩))
  | _ => none

end DispatcherLoop

namespace FuturePoolManager

/-- `FuturePoolManager::submit`. -/
def submit (pid : Nat) (sh : Shared σ R) (c : SubmitCall R) : Next σ R (SubmitCall R) :=
  match c.pc with
  | .checkToken =>
    if sh.token then c.refuse sh .poolShuttingDown else some (sh, c.goto .checkClosed, none)
  | .checkClosed =>
    if sh.queueClosed then c.refuse sh .poolShuttingDown else some (sh, c.goto .create, none)
  | .create =>
    some (sh.createTask c.labels c.future, c.goto (.sendToken sh.nextTaskId), none)
  | _ => QueueProducer.send pid sh c

/-- `FuturePoolManager::run_worker_loop`. The permit is acquired before a task is
received; `QueueConsumer::recv` frees the queue slot of the message it returns. -/
def runWorkerLoop (cfg : PoolConfig) (pid : Nat) (sh : Shared σ R) (d : DispatcherLoop) :
    Next σ R DispatcherLoop :=
  match d.pc with
  | .top => some (sh, d.goto (if sh.token then .exit false none else .acquire none), none)
  | .acquire none =>
    let (gate, ready) := Semaphore.pollAcquire pid sh.concurrencyGate
    some ({ sh with concurrencyGate := gate },
      d.goto (if ready then .recheck none else .acquireToken none), none)
  | .acquireToken none =>
    if sh.token then
      some ({ sh with concurrencyGate := Semaphore.dropAcquire pid sh.concurrencyGate },
        d.goto (.exit false none), none)
    else some (sh, d.goto (.acquire none), none)
  | .recheck none => some (sh, d.goto (if sh.token then .exit true none else .recv true), none)
  | .recv true =>
    match sh.lanes[d.lane]? with
    | none => none
    | some ⟨t :: items, receiver, done⟩ =>
      some ((sh.setLane d.lane ⟨items, receiver, done⟩).releaseSlot, d.goto (.guard t), none)
    | some ⟨[], _, _⟩ =>
      some (sh, d.goto (if sh.queueSenders = 0 then .exit true none else .recvToken true), none)
  | .recvToken true =>
    some (sh, d.goto (if sh.token then .exit true none else .recv true), none)
  | .guard t =>
    if sh.token then d.dropTask sh t (.exit true none)
    else some (sh, d.goto (.precheck true t), none)
  | .precheck true t =>
    some (sh, d.goto (if sh.isCancelled t then .cancelSend true t else .insert t), none)
  | .insert t =>
    let (active, slot) := sh.active.insert t
    some ({ sh with active := active }, d.goto (.lookup t slot), none)
  | .lookup .. | .spawn .. => d.launch sh
  | .cancelSend .. | .cancelLookup .. | .cancelNotify .. | .cancelDrop .. => d.preCancelled cfg sh
  | .exit .. | .drain => d.leave sh
  | _ => none

end FuturePoolManager

end FuturesOrchestra
