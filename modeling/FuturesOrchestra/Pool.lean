import FuturesOrchestra.Rlxd
import FuturesOrchestra.Wrapper
import FuturesOrchestra.Calls

/-!
# The two pools as programs

`pool cfg` is the program of a pool: what a process does on a signal, and which
calls the outside world can make. A run interleaves any number of submitters,
handles, cancellations, handler registrations, shutdown calls and drops with the
dispatcher loops, the spawned wrappers and the notification worker.
-/

namespace FuturesOrchestra

open Interleaving

variable {σ R : Type} [Semaphore σ]

/-- What the users of a pool can do. -/
inductive Call (R : Type)
  | clone (c : Nat)
  | submit (c : Nat) (labels : Finset TaskLabel) (future : TaskFuture R)
  | cancel (t : Nat)
  | dropHandle (t : Nat)
  | cancelLabels (c : Nat) (labels : Finset TaskLabel)
  | addHandler (c : Nat)
  | shutdown (c : Nat) (mode : ShutdownMode)
  | dropManager (c : Nat)

namespace Shared

/-- Manager handle `c` can be borrowed by a call. -/
def usable (sh : Shared σ R) (c : Nat) : Bool := (sh.clones[c]?).any (·.alive)

/-- Manager handle `c` can be consumed: it is usable and no call borrows it. -/
def unborrowed (sh : Shared σ R) (c : Nat) : Bool :=
  (sh.clones[c]?).any fun h => h.alive && h.borrows == 0

def borrow (sh : Shared σ R) (c : Nat) : Shared σ R :=
  { sh with clones := sh.clones.modify c fun h => { h with borrows := h.borrows + 1 } }

def consume (sh : Shared σ R) (c : Nat) : Shared σ R :=
  { sh with clones := sh.clones.modify c fun h => { h with alive := false } }

/-- Somebody holds the handle of task `t`. -/
def hasHandle (sh : Shared σ R) (t : Nat) : Bool :=
  (sh.tasks t).accepted && (sh.tasks t).receiver

/-- A pool that was just built. -/
def new (cfg : PoolConfig) : Shared σ R where
  clones := [⟨true, 0⟩]
  guards := 1
  token := false
  concurrencyGate := Semaphore.new cfg.permits
  queueGate := Semaphore.new cfg.queueSlots
  lanes := List.replicate cfg.lanes ⟨[], true, false⟩
  queueSenders := 1
  nextLane := 0
  active := .empty
  shards := match cfg.kind with
    | .strict => []
    | .rlxd => List.replicate cfg.lanes .empty
  nextTaskId := 0
  tasks := fun _ => Task.new 0 ∅ .never
  joinHandles := List.range cfg.lanes
  notifier := .new

end Shared

/-- A call begins. -/
def Call.enter (sh : Shared σ R) : Call R → Option (Shared σ R × Option (Proc R))
  | .clone c =>
    if sh.usable c then
      some ({ sh with
        clones := sh.clones ++ [⟨true, 0⟩]
        guards := sh.guards + 1
        queueSenders := sh.queueSenders + 1 }, none)
    else none
  | .submit c labels future =>
    if sh.usable c then
      some (sh.borrow c, some (.submit ⟨c, labels, future, .checkToken, false⟩))
    else none
  | .cancel t => if sh.hasHandle t then some (sh.modifyTask t Task.cancel, none) else none
  | .dropHandle t =>
    if sh.hasHandle t then some (sh.modifyTask t Task.dropReceiver, none) else none
  | .cancelLabels c labels =>
    if sh.usable c then some (sh.borrow c, some (.labelCancel ⟨c, labels, .start⟩)) else none
  | .addHandler c =>
    if sh.usable c then some (sh.borrow c, some (.addHandler ⟨c, .init⟩)) else none
  | .shutdown c mode =>
    if sh.unborrowed c then
      some (sh.consume c, some (.shutdown ⟨c, mode, false, false, none, .readToken⟩))
    else none
  | .dropManager c =>
    if sh.unborrowed c then some (sh.consume c, some (.drop ⟨c, false, .count⟩)) else none

/-- The step of a process of kind `L`, as a step of the pool. -/
def Next.toProc {L : Type} (f : L → Proc R) (next : Next σ R L) : Next σ R (Proc R) :=
  next.map fun r => (r.1, f r.2.1, r.2.2)

/-- The future of a `submit` call can be dropped where it waits for a slot. -/
def SubmitCall.abandonAt (pid : Nat) (sh : Shared σ R) (c : SubmitCall R) :
    Next σ R (SubmitCall R) :=
  match c.pc with
  | .selectToken t | .selectAcquire t => c.abandon pid sh t
  | _ => none

def submitStep (cfg : PoolConfig) (pid : Nat) (sh : Shared σ R) (c : SubmitCall R) :
    Next σ R (SubmitCall R) :=
  match cfg.kind with
  | .strict => FuturePoolManager.submit pid sh c
  | .rlxd => FuturePoolManagerRlxd.submitInner pid sh c

def loopStep (cfg : PoolConfig) (pid : Nat) (sh : Shared σ R) (d : DispatcherLoop) :
    Next σ R DispatcherLoop :=
  match cfg.kind with
  | .strict => FuturePoolManager.runWorkerLoop cfg pid sh d
  | .rlxd => FuturePoolManagerRlxd.runWorkerLoop cfg pid sh d

def wrapperStep (cfg : PoolConfig) (sh : Shared σ R) (w : Wrapper R) : Next σ R (Wrapper R) :=
  match cfg.kind with
  | .strict => FuturePoolManager.wrapper cfg sh w
  | .rlxd => FuturePoolManagerRlxd.wrapper cfg sh w

/-- What process `pid` does on a signal. -/
def Proc.run (cfg : PoolConfig) : Signal → Nat → Shared σ R → Proc R → Next σ R (Proc R)
  | .step, pid, sh, .submit c => (submitStep cfg pid sh c).toProc .submit
  | .step, pid, sh, .loop d => (loopStep cfg pid sh d).toProc .loop
  | .step, _, sh, .wrapper w => (wrapperStep cfg sh w).toProc .wrapper
  | .step, _, sh, .notifier n => (n.step sh).toProc .notifier
  | .step, _, sh, .shutdown c => (c.step cfg sh).toProc .shutdown
  | .step, _, sh, .drop c => (c.step sh).toProc .drop
  | .step, _, sh, .labelCancel c => (c.step cfg sh).toProc .labelCancel
  | .step, pid, sh, .addHandler c => (c.step pid sh).toProc .addHandler
  | .timeout, _, sh, .shutdown c => (c.timeout sh).toProc .shutdown
  | .abandon, _, sh, .shutdown c => (c.abandon sh).toProc .shutdown
  | .abandon, pid, sh, .submit c => (c.abandonAt pid sh).toProc .submit
  | .panic dropPanics, _, sh, .notifier n => (n.panicked sh dropPanics).toProc .notifier
  | _, _, _, _ => none

/-- The state of a pool and an event of one of its runs. -/
abbrev Pool (σ R : Type) := Threads (Shared σ R) (Proc R)

abbrev PoolEvent (R : Type) := Event Signal (Call R)

/-- The program of a pool. -/
def pool (σ R : Type) [Semaphore σ] (cfg : PoolConfig) :
    Program (Shared σ R) (Proc R) Signal (Call R) :=
  ⟨Proc.run cfg, fun call sh => call.enter sh⟩

/-- A pool that was just built: its dispatcher loops are its first processes. -/
def Pool.new (σ R : Type) [Semaphore σ] (cfg : PoolConfig) : Pool σ R :=
  ⟨.new cfg, (List.range cfg.lanes).map fun lane => .loop ⟨lane, .top, false⟩⟩

/-- The runs of a pool. -/
def poolMachine (σ R : Type) [Semaphore σ] (cfg : PoolConfig) :
    Machine (Pool σ R) (PoolEvent R) :=
  (pool σ R cfg).machine (Pool.new σ R cfg)

/-- The schedule in which these processes take one step each, in this order. -/
def stepping (pids : List Nat) : List (PoolEvent R) := pids.map fun pid => .run .step pid

/-- No timeout fires. -/
def untimed (_ : Pool σ R) : PoolEvent R → Bool
  | .run .timeout _ => false
  | _ => true

end FuturesOrchestra
