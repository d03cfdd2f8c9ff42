import FuturesOrchestra.Shared

/-!
# The spawned task wrapper

The future that both pools spawn for a task. The two blocks agree up to the
completion message; then the strict pool drops the future and the permit and
removes the registry entry in a combinator that runs only when the block has
ended normally, and the relaxed pool marks the core finished and counts the task
out before the future and the permit are dropped.
-/

namespace FuturesOrchestra

open Interleaving

variable {σ R : Type} [Semaphore σ]

namespace Wrapper

def goto (w : Wrapper R) (pc : WrapperPc R) : Wrapper R := { w with pc := pc }

/-- Whether dropping what the guarded future has resolved to panics. -/
def discardPanics (future : TaskFuture R) : Option R → Bool
  | some _ => future.resultDropPanics
  | none => future.payloadDropPanics

/-- One poll of the guarded future: a value, the payload of a caught panic, or
nothing yet. -/
def pollFuture (sh : Shared σ R) (w : Wrapper R) : Next σ R (Wrapper R) :=
  let task := sh.tasks w.task
  some (sh.modifyTask w.task Task.countPoll,
    w.goto (match task.future.poll task.polls with
      | .pending => .selectCancelled
      | .ready value => .resolved (some value)
      | .panicked => .resolved none), none)

/-- The flag check on completion. A value or payload that is not passed on is
dropped here, and a panic of its destructor unwinds the wrapper. -/
def checkFlag (sh : Shared σ R) (w : Wrapper R) (value : Option R) : Next σ R (Wrapper R) :=
  let future := (sh.tasks w.task).future
  let pc :=
    if sh.isCancelled w.task then
      if discardPanics future value then .unwind true else .outcome (.error .taskCancelled)
    else
      match value with
      | some v => .outcome (.ok v)
      | none => if future.payloadDropPanics then .unwind true else .outcome (.error .taskPanicked)
  some (sh, w.goto pc, none)

/-- Whether a result that the receiver no longer takes panics when it is dropped. -/
def resultPanics (task : Task R) : Except PoolError R → Bool
  | .ok _ => !task.receiver && task.future.resultDropPanics
  | .error _ => false

/-- The wrapper up to the completion message. The `select!` polls the future first, on every
wake; the cancellation arm is polled after a poll that came back pending, and when that is
pending too the wrapper sleeps. -/
def body (cfg : PoolConfig) (sh : Shared σ R) (w : Wrapper R) : Next σ R (Wrapper R) :=
  match w.pc with
  | .poll => w.pollFuture sh
  | .selectCancelled =>
    some (sh, w.goto (if sh.isCancelled w.task then .outcome (.error .taskCancelled) else .poll),
      none)
  | .resolved value => w.checkFlag sh value
  | .outcome result =>
    some (sh.modifyTask w.task (Task.send · result),
      w.goto (if resultPanics (sh.tasks w.task) result then .unwind false
        else .settled (.ofResult result)), none)
  | .settled status =>
    if w.sender then
      some (sh.sendCompletion cfg w.task status, { w with sender := false, pc := .closing }, none)
    else some (sh, w.goto .closing, none)
  | _ => none

/-- The wrapper unwinds: what it still holds is dropped, the future, the permit
and the senders. A panic of the future's destructor now aborts the process. -/
def unwind (sh : Shared σ R) (w : Wrapper R) (tx : Bool) : Next σ R (Wrapper R) :=
  if (sh.tasks w.task).future.dropPanics then none
  else
    let sh := if tx then sh.releasePermit.dropTask w.task else sh.releasePermit
    some (sh.hangUp w.sender, { w with sender := false, pc := .crashed true }, none)

end Wrapper

/-- The wrapper of the strict pool. -/
def FuturePoolManager.wrapper (cfg : PoolConfig) (sh : Shared σ R) (w : Wrapper R) :
    Next σ R (Wrapper R) :=
  match w.pc with
  | .closing =>
    some (sh.releasePermit,
      w.goto (if (sh.tasks w.task).future.dropPanics then .crashed true else .remove), none)
  | .remove => some ({ sh with active := sh.active.remove w.slot }, w.goto .ended, none)
  | .unwind tx => w.unwind sh tx
  | _ => w.body cfg sh

/-- The wrapper of the relaxed pool. -/
def FuturePoolManagerRlxd.wrapper (cfg : PoolConfig) (sh : Shared σ R) (w : Wrapper R) :
    Next σ R (Wrapper R) :=
  match w.pc with
  | .closing => some (sh.modifyTask w.task Task.markFinished, w.goto .finish, none)
  | .finish =>
    match sh.shards[w.slot]? with
    | none => none
    | some r => some (sh.setShard w.slot r.finish, w.goto .release, none)
  | .release =>
    some (sh.releasePermit,
      w.goto (if (sh.tasks w.task).future.dropPanics then .crashed false else .ended), none)
  | .unwind tx => w.unwind sh tx
  | _ => w.body cfg sh

end FuturesOrchestra
