import FuturesOrchestra.Shared

/-!
# Sending to the task queue

The two producers of the bounded queue, `QueueProducer` of the strict pool and
`RlxdQueueProducer` with one lane for each dispatcher, as the part of a `submit`
call that runs them. A poll of their `select!` is two steps, one for each arm,
in the order of the source.
-/

namespace FuturesOrchestra

open Interleaving

variable {σ R : Type} [Semaphore σ]

namespace SubmitCall

def goto (c : SubmitCall R) (pc : SubmitPc) : SubmitCall R := { c with pc := pc }

/-- The call returns an error before it has created a task. -/
def refuse (sh : Shared σ R) (c : SubmitCall R) (e : PoolError) : Next σ R (SubmitCall R) :=
  some (sh.unborrow c.clone, c.goto (.returned (.error e)), none)

/-- The call returns an error and drops the task it holds, whose destructor may
panic, and the receiver of its result. -/
def reject (sh : Shared σ R) (c : SubmitCall R) (t : Nat) (e : PoolError) :
    Next σ R (SubmitCall R) :=
  some (((sh.dropTask t).modifyTask t Task.dropReceiver).unborrow c.clone,
    { c with pc := .returned (.error e), unwound := (sh.tasks t).future.dropPanics }, none)

/-- The call returns the handle of task `t`, having started `sp`. -/
def accept (sh : Shared σ R) (c : SubmitCall R) (t : Nat) (sp : Option (Proc R)) :
    Next σ R (SubmitCall R) :=
  some ((sh.modifyTask t Task.accept).unborrow c.clone, c.goto (.returned (.ok t)), sp)

/-- `tx.send(message).await` and what follows it. On success the slot travels
with the message. On failure the message is dropped, and its permit releases the
slot; then `temp_permit_guard` goes out of scope and releases it again. -/
def enqueue (sh : Shared σ R) (c : SubmitCall R) (t lane : Nat) : Next σ R (SubmitCall R) :=
  match sh.lanes[lane]? with
  | none => none
  | some l =>
    if l.receiver then c.accept (sh.setLane lane { l with items := l.items ++ [t] }) t none
    else c.reject sh.releaseSlot.releaseSlot t .queueSendChannelClosed

/-- The `select!` of `send` is left by its cancellation arm. -/
def selectCancelled (pid : Nat) (sh : Shared σ R) (c : SubmitCall R) (t : Nat) :
    Next σ R (SubmitCall R) :=
  c.reject { sh with queueGate := Semaphore.dropAcquire pid sh.queueGate } t .poolShuttingDown

/-- The future of the call is dropped while it waits for a slot. -/
def abandon (pid : Nat) (sh : Shared σ R) (c : SubmitCall R) (t : Nat) :
    Next σ R (SubmitCall R) :=
  let sh := { sh with queueGate := Semaphore.dropAcquire pid sh.queueGate }
  some (((sh.dropTask t).modifyTask t Task.dropReceiver).unborrow c.clone,
    { c with pc := .abandoned, unwound := (sh.tasks t).future.dropPanics }, none)

end SubmitCall

/-- `QueueProducer::send`: the `select!` polls the shutdown token first. -/
def QueueProducer.send (pid : Nat) (sh : Shared σ R) (c : SubmitCall R) :
    Next σ R (SubmitCall R) :=
  match c.pc with
  | .sendToken t =>
    if sh.token then c.reject sh t .poolShuttingDown else some (sh, c.goto (.sendClosed t), none)
  | .sendClosed t =>
    if sh.queueClosed then c.reject sh t .poolShuttingDown
    else some (sh, c.goto (.selectToken t), none)
  | .selectToken t =>
    if sh.token then c.selectCancelled pid sh t
    else some (sh, c.goto (.selectAcquire t), none)
  | .selectAcquire t =>
    let (gate, ready) := Semaphore.pollAcquire pid sh.queueGate
    some ({ sh with queueGate := gate },
      c.goto (if ready then .push t 0 else .selectToken t), none)
  | .push t lane => c.enqueue sh t lane
  | _ => none

/-- `RlxdQueueProducer::send`: the `select!` polls the gate first. -/
def RlxdQueueProducer.send (pid : Nat) (sh : Shared σ R) (c : SubmitCall R) :
    Next σ R (SubmitCall R) :=
  match c.pc with
  | .sendToken t =>
    if sh.token then c.reject sh t .poolShuttingDown else some (sh, c.goto (.sendClosed t), none)
  | .sendClosed t =>
    if sh.queueClosed then c.reject sh t .poolShuttingDown
    else some (sh, c.goto (.selectAcquire t), none)
  | .selectAcquire t =>
    let (gate, ready) := Semaphore.pollAcquire pid sh.queueGate
    some ({ sh with queueGate := gate },
      c.goto (if ready then .sendRoute t else .selectToken t), none)
  | .selectToken t =>
    if sh.token then c.selectCancelled pid sh t
    else some (sh, c.goto (.selectAcquire t), none)
  | .sendRoute t =>
    some (sh.fetchAddLane, c.goto (.push t (sh.nextLane % sh.lanes.length)), none)
  | .push t lane => c.enqueue sh t lane
  | _ => none

end FuturesOrchestra
