import FuturesOrchestra.Proofs.CallsReturn
import FuturesOrchestra.Proofs.Finishing
import FuturesOrchestra.Proofs.Shutdown

/-!
# No deadlock

A process that waits looks again and again at something that is not there. It is
stalled while that does not change. Left alone every process ends or stalls, a
process that others wait for sets them free first, and when all of them have ended
or are stalled no submission, dispatcher, wrapper or registration waits for another
process: what is left is idle.
-/

namespace FuturesOrchestra

open Interleaving Semaphore

variable {σ R : Type} {cfg : PoolConfig} {pid t : Nat} {sh sh' : Shared σ R}
  {sp : Option (Proc R)} {p p' : Proc R}

/-! ## Stalled processes -/

/-- The worker has taken every message, and somebody may send another one. -/
def NotifierLoop.parked (sh : Shared σ R) (n : NotifierLoop) : Bool :=
  match n.pc with
  | .recv | .token =>
    (sh.notifier.sent[sh.notifier.taken]?).isNone && sh.notifier.senders != 0
  | _ => false

/-- The worker waits for a message, or a `shutdown` call sleeps until the active count has
come down. -/
def Proc.dormant (cfg : PoolConfig) (sh : Shared σ R) : Proc R → Bool
  | .notifier n => n.parked sh
  | .shutdown c => c.pc == .wait && sh.activeTaskCount cfg != 0
  | _ => false

section Resting

variable [Semaphore σ]

/-- Process `pid` waits for something that is not there. -/
def Proc.stalled (cfg : PoolConfig) (pid : Nat) (sh : Shared σ R) (p : Proc R) : Bool :=
  p.waits sh || p.blocked pid sh || p.dormant cfg sh

/-- Process `pid` goes no further by itself: it has ended, is stalled, aborts, or polls a
future that is not ready. -/
def Proc.resting (cfg : PoolConfig) (pid : Nat) (sh : Shared σ R) (p : Proc R) : Bool :=
  p.ended || p.stalled cfg pid sh || p.aborts sh || p.idles sh

variable {s : Pool σ R} {ok : Pool σ R → PoolEvent R → Prop}

theorem Earlier.wf : WellFounded Earlier := Nat.lt_wfRel.wf.prod_lex Nat.lt_wfRel.wf

/-- What is left to do, and whether the next look is in vain. -/
def Proc.ahead (cfg : PoolConfig) (pid : Nat) (sh : Shared σ R) (p : Proc R) : Nat × Nat :=
  (24 * sh.messages + p.toDo cfg, (p.vain pid sh).toNat)

omit [Semaphore σ] in
theorem ShutdownStep.activeTaskCount {b : Signal} {c c' : ShutdownCall}
    (h : ShutdownStep cfg b sh c sh' c') : sh'.activeTaskCount cfg = sh.activeTaskCount cfg := by
  have hquiet := Bystanding.shutdown h
  unfold Shared.activeTaskCount
  rw [hquiet.active, hquiet.shards]

/-- How often the call may read the whole count again when nothing is counted. -/
def ShutdownPc.round : ShutdownPc → Nat
  | .readToken | .cancel | .close | .sweep .. | .cancelAll _ => 3
  | .count _ active => if active = 0 then 0 else 2
  | .wait => 1
  | _ => 0

/-- The rounds that are left and the stage, while nothing is counted; else the stage. -/
def ShutdownCall.ahead (cfg : PoolConfig) (sh : Shared σ R) (c : ShutdownCall) :
    Nat × Nat × Nat :=
  (if sh.activeTaskCount cfg = 0 then c.pc.round else 0, c.pc.toGo cfg)

/-- The steps of the worker until it looks for the next message. -/
def NotifierPc.toGo (handlers : Nat) : NotifierPc → Nat
  | .lock _ => handlers + 2
  | .deliver _ rest => rest.length + 1
  | .token => 1
  | .recv | .ended | .unwound => 0

/-- The wrapper is past its completion message. -/
def WrapperPc.notified : WrapperPc R → Bool
  | .closing | .finish | .release | .remove | .ended | .crashed _ => true
  | _ => false

theorem WrapperStep.notified {w w' : Wrapper R} (h : WrapperStep cfg sh w sh' w')
    (hw : w.pc.notified = true → w.sender = false) (hw' : w'.pc.notified = true) :
    w'.sender = false := by
  cases h with
  | notify | unwind | unwindSent => rfl
  | silent _ hsender => exact hsender
  | pollPending | pollReady | pollPanicked | wake | cancelled | discard | pass | passPanic
  | discardUnwind | send | sendUnwind => cases hw'
  | _ => exact hw (by simp [WrapperPc.notified, *])

end Resting

end FuturesOrchestra
