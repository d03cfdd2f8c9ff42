import FuturesOrchestra.Task
import FuturesOrchestra.Lib.Refinement

/-!
# The life of a task

What the pool is for, told about one task: it is offered to the pool, waits in
the queue or not, is taken, runs, and ends with a result or without one. The
specification knows no lanes, permits, locks or processes. `Life.step` says which
of these things can follow which, and what they need: a future is polled only
while it runs and has not ended, a task settles as cancelled only after somebody
asked for it, and a submission that fails leaves nothing behind.
-/

namespace FuturesOrchestra

open Interleaving

variable {R : Type}

/-- Where a task is in its life. -/
inductive Phase (R : Type)
  | absent
  | offered
  | queued
  | taken
  | running
  | settled (result : Except PoolError R)
  | discarded

/-- One task as its user may think of it. -/
structure Life (R : Type) where
  phase : Phase R
  future : TaskFuture R
  polls : Nat
  cancelled : Bool
  accepted : Bool

/-- What can happen to a task. -/
inductive Turn (R : Type)
  | offer (future : TaskFuture R)
  | enqueue
  | launch
  | refuse
  | take
  | start
  | poll
  | cancel
  | finish
  | finishCancelled
  | discard
  | lose

namespace Life

def absent : Life R := ⟨.absent, .never, 0, false, false⟩

/-- What the last poll of the future did; before the first one it is pending. -/
def lastPoll (l : Life R) : Poll R :=
  match l.polls with
  | 0 => .pending
  | n + 1 => l.future.poll n

/-- The outcome of the future is lost when it is to be discarded and its
destructor panics. -/
def losing (l : Life R) : Bool :=
  match l.lastPoll with
  | .pending => false
  | .ready _ => l.cancelled && l.future.resultDropPanics
  | .panicked => l.future.payloadDropPanics

/-- The specification. -/
def step (l : Life R) : Turn R → Option (Life R)
  | .offer future =>
    match l.phase with
    | .absent => some ⟨.offered, future, 0, false, false⟩
    | _ => none
  | .enqueue =>
    match l.phase with
    | .offered => some { l with phase := .queued, accepted := true }
    | _ => none
  -- the fast path of the relaxed pool: no queue
  | .launch =>
    match l.phase with
    | .offered => some { l with phase := .running, accepted := true }
    | _ => none
  | .refuse =>
    match l.phase with
    | .offered => some { l with phase := .discarded }
    | _ => none
  | .take =>
    match l.phase with
    | .queued => some { l with phase := .taken }
    | _ => none
  | .start =>
    match l.phase with
    | .taken => some { l with phase := .running }
    | _ => none
  | .poll =>
    match l.phase, l.lastPoll with
    | .running, .pending => some { l with polls := l.polls + 1 }
    | _, _ => none
  | .cancel =>
    match l.phase with
    | .absent => none
    | _ => some { l with cancelled := true }
  | .finish =>
    match l.phase, l.lastPoll with
    | .running, .ready v => some { l with phase := .settled (.ok v) }
    | .running, .panicked => some { l with phase := .settled (.error .taskPanicked) }
    | _, _ => none
  -- a dispatcher finds the flag before the start, or the wrapper after a poll
  | .finishCancelled =>
    match l.phase with
    | .taken | .running =>
      if l.cancelled then some { l with phase := .settled (.error .taskCancelled) } else none
    | _ => none
  -- a dispatcher on its way out drops the task in its hand and those in its lane
  | .discard =>
    match l.phase with
    | .queued | .taken => some { l with phase := .discarded }
    | _ => none
  | .lose =>
    match l.phase with
    | .running => if l.losing then some { l with phase := .discarded } else none
    | _ => none

end Life

/-- The lives that a task can have. -/
def lifeMachine (R : Type) : Machine (Life R) (Turn R) := ⟨.absent, Life.step⟩

/-! ## What every life keeps -/

namespace Phase

/-- The task has not been started. -/
def waiting : Phase R → Bool
  | .absent | .offered | .queued | .taken => true
  | _ => false

/-- The life is over. -/
def ended : Phase R → Bool
  | .settled _ | .discarded => true
  | _ => false

/-- How far the life has come. -/
def rank : Phase R → Nat
  | .absent => 0
  | .offered => 1
  | .queued => 2
  | .taken => 3
  | .running => 4
  | .settled _ | .discarded => 5

end Phase

namespace Life

variable {l l' : Life R} {a : Turn R}

/-- What holds of a task at every moment of its life. -/
structure Sound (l : Life R) : Prop where
  /-- A future is not polled before it is started. -/
  unstarted : l.phase.waiting = true → l.polls = 0
  /-- A task that was not accepted was not started. -/
  unaccepted : l.accepted = false → l.polls = 0 ∧
    (l.phase = .absent ∨ l.phase = .offered ∨ l.phase = .discarded)
  /-- A task that is still offered is not accepted. -/
  offered : l.phase = .offered → l.accepted = false
  /-- Every poll but the last one was pending. -/
  pending : ∀ k, k + 1 < l.polls → l.future.poll k = .pending
  value : ∀ v, l.phase = .settled (.ok v) → l.lastPoll = .ready v
  panicked : l.phase = .settled (.error .taskPanicked) → l.lastPoll = .panicked
  cancelled : l.phase = .settled (.error .taskCancelled) → l.cancelled = true
  /-- No other error is ever a result. -/
  errors : ∀ e, l.phase = .settled (.error e) → e = .taskPanicked ∨ e = .taskCancelled

theorem sound_absent : (absent : Life R).Sound where
  unstarted _ := rfl
  unaccepted _ := ⟨rfl, .inl rfl⟩
  offered := by rintro ⟨⟩
  pending k hk := absurd hk (Nat.not_lt_zero _)
  value v := by rintro ⟨⟩
  panicked := by rintro ⟨⟩
  cancelled := by rintro ⟨⟩
  errors e := by rintro ⟨⟩

/-- While the last poll was pending, all of them were. -/
theorem pending_of_lastPoll (hpending : ∀ k, k + 1 < l.polls → l.future.poll k = .pending)
    (hlast : l.lastPoll = .pending) {k : Nat} (hk : k < l.polls) :
    l.future.poll k = .pending := by
  by_cases hlt : k + 1 < l.polls
  · exact hpending k hlt
  · have hpolls : l.polls = k + 1 := by omega
    simpa [lastPoll, hpolls] using hlast

theorem Sound.step (hs : l.Sound) (h : l.step a = some l') : l'.Sound := by
  have hpolled (hlast : l.lastPoll = .pending) (k : Nat) (hk : k < l.polls) :=
    pending_of_lastPoll hs.pending hlast hk
  obtain ⟨hun, hacc, hoff, hpend, hval, hpan, hcan, herr⟩ := hs
  revert h
  fun_cases Life.step l a
  all_goals rintro ⟨⟩
  all_goals constructor
  all_goals simp_all [Phase.waiting, lastPoll]

/-- A life does not go back. -/
theorem rank_le (h : l.step a = some l') : l.phase.rank ≤ l'.phase.rank := by
  revert h
  fun_cases Life.step l a
  all_goals rintro ⟨⟩
  all_goals simp_all [Phase.rank]

/-- Nothing but a request for cancellation happens to a task after its end. -/
theorem kept_of_ended (hended : l.phase.ended = true) (h : l.step a = some l') :
    l'.phase = l.phase ∧ l'.polls = l.polls ∧ l'.accepted = l.accepted := by
  revert h
  fun_cases Life.step l a
  all_goals rintro ⟨⟩
  all_goals simp_all [Phase.ended]

end Life

/-- Every state of a life is sound. -/
theorem life_sound {l : Life R} (h : (lifeMachine R).Reachable Machine.anyStep l) : l.Sound :=
  h.invariant (fun hs _ hstep => hs.step hstep) Life.sound_absent

end FuturesOrchestra
