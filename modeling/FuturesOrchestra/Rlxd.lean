import FuturesOrchestra.Manager

/-!
# The relaxed pool

`FuturePoolManagerRlxd::submit_inner`, with its direct dispatch, and the
dispatcher loop of one lane. `spawn_task` runs in both.
-/

namespace FuturesOrchestra

open Interleaving

variable {σ R : Type} [Semaphore σ]

namespace FuturePoolManagerRlxd

/-- `FuturePoolManagerRlxd::submit_inner`. The fast path reads the length of each
lane, then tries the gate, and spawns from the submitter's own thread. -/
def submitInner (pid : Nat) (sh : Shared σ R) (c : SubmitCall R) : Next σ R (SubmitCall R) :=
  match c.pc with
  | .checkToken =>
    if sh.token then c.refuse sh .poolShuttingDown else some (sh, c.goto .checkClosed, none)
  | .checkClosed =>
    if sh.queueClosed then c.refuse sh .poolShuttingDown else some (sh, c.goto .create, none)
  | .create =>
    some (sh.createTask c.labels c.future, c.goto (.scan sh.nextTaskId 0 0), none)
  | .scan t lane queued =>
    match sh.lanes[lane]? with
    | some l => some (sh, c.goto (.scan t (lane + 1) (queued + l.items.length)), none)
    | none => some (sh, c.goto (if queued = 0 then .tryAcquire t else .sendToken t), none)
  | .tryAcquire t =>
    match Semaphore.tryAcquire sh.concurrencyGate with
    | some gate => some ({ sh with concurrencyGate := gate }, c.goto (.route t), none)
    | none => some (sh, c.goto (.sendToken t), none)
  | .route t =>
    some (sh.fetchAddLane, c.goto (.insertCount t (sh.nextLane % sh.shards.length)), none)
  | .insertCount t shard =>
    match sh.shards[shard]? with
    | none => none
    | some r => some (sh.setShard shard r.count, c.goto (.insert t shard), none)
  | .insert t shard =>
    match sh.shards[shard]? with
    | none => none
    | some r => some (sh.setShard shard (r.store sh.isFinished t), c.goto (.lookup t shard), none)
  | .lookup t shard =>
    let (sh', found) := sh.lookupSender
    some (sh', c.goto (.spawn t shard found), none)
  | .spawn t shard sender => c.accept sh t (some (.wrapper ⟨t, shard, sender, .poll⟩))
  | _ => RlxdQueueProducer.send pid sh c

/-- `FuturePoolManagerRlxd::run_worker_loop`. A task is received first and the
permit is acquired for it; the arm that receives a message tests the token while
it still holds the message, so both happen in one step. -/
def runWorkerLoop (cfg : PoolConfig) (pid : Nat) (sh : Shared σ R) (d : DispatcherLoop) :
    Next σ R DispatcherLoop :=
  match d.pc with
  | .top => some (sh, d.goto (if sh.token then .exit false none else .recv false), none)
  | .recv false =>
    match sh.lanes[d.lane]? with
    | none => none
    | some ⟨t :: items, receiver, done⟩ =>
      let sh' := (sh.setLane d.lane ⟨items, receiver, done⟩).releaseSlot
      if sh.token then d.dropTask sh' t (.exit false none)
      else some (sh', d.goto (.precheck false t), none)
    | some ⟨[], _, _⟩ =>
      some (sh, d.goto (if sh.queueSenders = 0 then .exit false none else .recvToken false), none)
  | .recvToken false =>
    some (sh, d.goto (if sh.token then .exit false none else .recv false), none)
  | .precheck false t =>
    some (sh, d.goto (if sh.isCancelled t then .cancelSend false t else .acquire (some t)), none)
  | .acquire (some t) =>
    let (gate, ready) := Semaphore.pollAcquire pid sh.concurrencyGate
    some ({ sh with concurrencyGate := gate },
      d.goto (if ready then .recheck (some t) else .acquireToken (some t)), none)
  | .acquireToken (some t) =>
    if sh.token then
      some ({ sh with concurrencyGate := Semaphore.dropAcquire pid sh.concurrencyGate },
        d.goto (.exit false (some t)), none)
    else some (sh, d.goto (.acquire (some t)), none)
  | .recheck (some t) =>
    some (sh, d.goto (if sh.token then .exit true (some t) else .insertCount t), none)
  | .insertCount t =>
    match sh.shards[d.lane]? with
    | none => none
    | some r => some (sh.setShard d.lane r.count, d.goto (.insert t), none)
  | .insert t =>
    match sh.shards[d.lane]? with
    | none => none
    | some r =>
      some (sh.setShard d.lane (r.store sh.isFinished t), d.goto (.lookup t d.lane), none)
  | .lookup .. | .spawn .. => d.launch sh
  | .cancelSend .. | .cancelLookup .. | .cancelNotify .. | .cancelDrop .. => d.preCancelled cfg sh
  | .exit .. | .drain => d.leave sh
  | _ => none

end FuturePoolManagerRlxd

end FuturesOrchestra
