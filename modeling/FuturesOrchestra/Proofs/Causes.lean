import FuturesOrchestra.Proofs.LabelCancel
import FuturesOrchestra.Proofs.Cancellation
import FuturesOrchestra.Proofs.Overtaking

/-!
# Whom a cancellation is meant for

A task is cancelled only by a call that is meant for it: through its own handle, with
one of its labels, or by a forceful shutdown. `Unmeant` is what the calls under way
look like in a run without such calls. A graceful shutdown, the drop of a manager handle
and the cancellation of other tasks leave the outcome of a task alone, unless they make a
dispatcher drop it before its start.
-/

namespace FuturesOrchestra

open Interleaving

variable {σ R : Type} {cfg : PoolConfig} {t : Nat} {sh sh' : Shared σ R}
  {labels : Finset TaskLabel}

/-- The call is meant for task `t`, whose labels are `labels`. -/
def Call.meansTask (t : Nat) (labels : Finset TaskLabel) : Call R → Bool
  | .cancel u => u == t
  | .cancelLabels _ wanted => ¬Disjoint labels wanted
  | .shutdown _ mode => mode == .forcefulCancel
  | _ => false

/-- The event is the start of such a call. -/
def meansTask (t : Nat) (labels : Finset TaskLabel) : PoolEvent R → Bool
  | .run .. => false
  | .call c => c.meansTask t labels

/-- The call collects the tokens of the running tasks, or cancels them. -/
def ShutdownPc.sweeping : ShutdownPc → Bool
  | .sweep .. | .cancelAll _ => true
  | _ => false

/-- No call under way is meant for a task with these labels. -/
structure Unmeant (labels : Finset TaskLabel) (s : Pool σ R) : Prop where
  labelCancels : ∀ pid c, s.At pid (.labelCancel c) → Disjoint labels c.labels
  shutdowns : ∀ pid c, s.At pid (.shutdown c) → c.mode = .graceful ∧ c.pc.sweeping = false

/-- A graceful shutdown sweeps nothing. -/
theorem ShutdownStep.graceful_kept {b : Signal} {c c' : ShutdownCall}
    (h : ShutdownStep cfg b sh c sh' c') (hmode : c.mode = .graceful)
    (hpc : c.pc.sweeping = false) : c'.mode = .graceful ∧ c'.pc.sweeping = false := by
  cases h with
  | closeForceful _ hforceful =>
    rw [hmode] at hforceful
    cases hforceful
  | sweep hsweep | sweepEnd hsweep | cancelTask hsweep =>
    rw [hsweep] at hpc
    cases hpc
  | _ => exact ⟨hmode, rfl⟩

/-- A call that is not meant for the task starts no other process. -/
theorem Call.enter_unmeant {c : Call R} {q : Proc R} (h : c.enter sh = some (sh', some q))
    (hmeant : c.meansTask t labels = false) :
    (∀ d, q = .labelCancel d → Disjoint labels d.labels) ∧
      ∀ d, q = .shutdown d → d.mode = .graceful ∧ d.pc.sweeping = false := by
  revert h hmeant
  fun_cases Call.enter sh c
  all_goals rintro ⟨⟩ hmeant
  all_goals refine ⟨?_, ?_⟩
  all_goals rintro d ⟨⟩
  · simpa [Call.meansTask] using hmeant
  · refine ⟨?_, rfl⟩
    rename_i mode _
    cases mode with
    | graceful => rfl
    | forcefulCancel => cases hmeant

section Runs

variable [Semaphore σ] {s s' : Pool σ R}

theorem Unmeant.step {a : PoolEvent R} (hs : Unmeant labels s) (hmeant : meansTask t labels a = false)
    (hnext : (poolMachine σ R cfg).step s a = some s') : Unmeant labels s' := by
  cases a with
  | run b pid =>
    obtain ⟨p, sh, p', sp, hp, hrun, rfl⟩ := Program.step_run hnext
    refine ⟨fun qid c hc => ?_, fun qid c hc => ?_⟩
    · rcases Threads.update_getElem? hp hc with ⟨rfl, rfl⟩ | ⟨-, hold⟩ | ⟨-, hnew⟩
      · obtain ⟨c₀, rfl, hstep, -⟩ := Proc.labelCancel_of_run hrun
        rw [hstep.labels_kept]
        exact hs.labelCancels _ _ hp
      · exact hs.labelCancels _ _ hold
      · rcases Proc.started_of_run (hnew ▸ hrun) with ⟨w, heq⟩ | heq <;> cases heq
    · rcases Threads.update_getElem? hp hc with ⟨rfl, rfl⟩ | ⟨-, hold⟩ | ⟨-, hnew⟩
      · obtain ⟨c₀, rfl, hstep, -⟩ := Proc.shutdown_of_run hrun
        obtain ⟨hmode, hpc⟩ := hs.shutdowns _ _ hp
        exact hstep.graceful_kept hmode hpc
      · exact hs.shutdowns _ _ hold
      · rcases Proc.started_of_run (hnew ▸ hrun) with ⟨w, heq⟩ | heq <;> cases heq
  | call d =>
    obtain ⟨sh, sp, hcall, rfl⟩ := Program.step_call hnext
    refine ⟨fun qid c hc => ?_, fun qid c hc => ?_⟩
    · rcases Threads.spawn_getElem? hc with hold | ⟨-, rfl⟩
      · exact hs.labelCancels _ _ hold
      · exact (Call.enter_unmeant hcall hmeant).1 c rfl
    · rcases Threads.spawn_getElem? hc with hold | ⟨-, rfl⟩
      · exact hs.shutdowns _ _ hold
      · exact (Call.enter_unmeant hcall hmeant).2 c rfl

/-- A step that requests the cancellation of a task with these labels is the start of a
call that is meant for it. -/
theorem Unmeant.unrequested {a : PoolEvent R} (hs : Unmeant labels s)
    (hreach : (poolMachine σ R cfg).Reachable Machine.anyStep s)
    (hlabels : t < s.shared.nextTaskId → (s.shared.tasks t).core.labels = labels)
    (hmeant : meansTask t labels a = false) : requestsCancel t s a = false := by
  rw [← Bool.not_eq_true]
  intro hrequest
  cases a with
  | call c =>
    cases c with
    | cancel u => exact absurd hrequest (Bool.eq_false_iff.mp hmeant)
    | _ => cases hrequest
  | run b pid =>
    obtain ⟨p, hp, hcancels⟩ := (Option.any_eq_true _ _).mp hrequest
    cases p with
    | labelCancel c =>
      -- the sweep finds only tasks that have one of the wanted labels
      have hfound : t ∈ c.pc.tokens := by
        obtain ⟨clone, wanted, pc⟩ := c
        cases pc with
        | cancelAll tokens =>
          cases tokens with
          | nil => cases hcancels
          | cons u tokens => exact eq_of_beq hcancels ▸ List.mem_cons_self
        | _ => cases hcancels
      obtain ⟨hlt, hmatch, -⟩ := (found hreach).matching pid c t hp hfound
      rw [hlabels hlt] at hmatch
      exact hmatch (hs.labelCancels pid c hp)
    | shutdown c =>
      have hidle := (hs.shutdowns pid c hp).2
      obtain ⟨clone, mode, already, closed, dropped, pc⟩ := c
      cases pc with
      | cancelAll => cases hidle
      | _ => cases hcancels
    | _ => cases hcancels

/-- In a run without a call that is meant for a task with these labels, nobody requests
the cancellation of such a task. -/
theorem unrequested_of_unmeant
    (h : (poolMachine σ R cfg).Reachable (fun _ a => meansTask t labels a = false) s)
    (hlabels : t < s.shared.nextTaskId → (s.shared.tasks t).core.labels = labels) :
    (poolMachine σ R cfg).Reachable (fun s a => requestsCancel t s a = false) s := by
  refine (h.invariant (I := fun s => (poolMachine σ R cfg).Reachable Machine.anyStep s ∧
    Unmeant labels s ∧ ((t < s.shared.nextTaskId → (s.shared.tasks t).core.labels = labels) →
      (poolMachine σ R cfg).Reachable (fun s a => requestsCancel t s a = false) s))
    ?_ ?_).2.2 hlabels
  · rintro s a s' ⟨hreach, hs, hquiet⟩ hmeant hnext
    refine ⟨hreach.tail trivial hnext, hs.step hmeant hnext, fun hlabels' => ?_⟩
    have hstep : (poolMachine σ R cfg).Steps Machine.anyStep s s' := .tail .refl trivial hnext
    have hevolves := Shared.Evolves.steps hstep
    have hlabels (ht : t < s.shared.nextTaskId) : (s.shared.tasks t).core.labels = labels :=
      (hevolves.tasks t ht).labels.symm.trans (hlabels' (ht.trans_le hevolves.nextTaskId))
    exact (hquiet hlabels).tail (hs.unrequested hreach hlabels hmeant) hnext
  · refine ⟨.refl, ⟨fun pid c hc => ?_, fun pid c hc => ?_⟩, fun _ => .refl⟩
    · cases (Pool.init_loop hc).2
    · cases (Pool.init_loop hc).2

end Runs

/-- What a settled task was told: the value its future returned, that its future panicked,
or nothing, because it was dropped before its start or because the payload of its panic
panicked when it was dropped. -/
inductive KeepsOutcome (s : Pool σ R) (t : Nat) : Prop
  | returned {v} (htold : (s.shared.tasks t).sender = .used (.ok v))
      (hreturned : (s.shared.tasks t).returned = some v)
  | panicked (htold : (s.shared.tasks t).sender = .used (.error .taskPanicked))
      (hpanicked : (s.shared.tasks t).hasPanicked = true)
  | unstarted (hdropped : (s.shared.tasks t).sender = .dropped) (hunstarted : Unstarted s t)
      (hpolls : (s.shared.tasks t).polls = 0)
  | lostPayload (hdropped : (s.shared.tasks t).sender = .dropped)
      (hpanicked : (s.shared.tasks t).hasPanicked = true)
      (hpayload : (s.shared.tasks t).future.payloadDropPanics = true)

/-- A task is cancelled only by a call that is meant for it. In a run in which nobody cancels
task `t` through its handle, no label cancellation names one of its labels and nobody shuts
the pool down forcefully, the cancel flag of `t` is never set. Once `t` is settled it was told
the outcome of its own future, or was dropped before its start, or has lost the payload of its
panic. If it was accepted and no dispatcher is hit by a destructor that panics before the
token is cancelled, it is dropped before its start only by a shutdown. Graceful shutdowns,
drops of manager handles and cancellations of other tasks may happen in any order. -/
theorem unmeant_task_keeps_its_outcome (σ R : Type) [Semaphore σ] (cfg : PoolConfig) (t : Nat)
    (labels : Finset TaskLabel) (s : Pool σ R)
    (h : (poolMachine σ R cfg).Reachable (fun _ a => meansTask t labels a = false) s)
    (ht : t < s.shared.nextTaskId) (hlabels : (s.shared.tasks t).core.labels = labels) :
    s.shared.isCancelled t = false ∧
      ((s.shared.tasks t).sender.settled = true → KeepsOutcome s t) ∧
      ((poolMachine σ R cfg).Reachable (fun s e => keepsDispatchers s e = true) s →
        (s.shared.tasks t).accepted = true → Unstarted s t →
          (s.shared.tasks t).sender = .dropped → s.shared.token = true) := by
  have hquiet := unrequested_of_unmeant h fun _ => hlabels
  have hspared := not_cancelled_of_unrequested hquiet
  refine ⟨hspared, fun hsettled => ?_, fun hkeeps haccepted hunstarted hdropped => ?_⟩
  · rcases (verdicts h).settled_cases ht hsettled hspared with ⟨v, hused, hreturned⟩ |
      ⟨hused, hpanicked⟩ | ⟨hdropped, hunstarted, hpolls⟩ | ⟨hdropped, hpanicked, hpayload⟩
    · exact .returned hused hreturned
    · exact .panicked hused hpanicked
    · exact .unstarted hdropped hunstarted hpolls
    · exact .lostPayload hdropped hpanicked hpayload
  · refine dropped_shut ?_ hkeeps haccepted hunstarted hdropped
    intro s b pid d hok hp hstruck
    simpa [keepsDispatchers, hp, hstruck] using hok

/-- A task with the label `"red"` that has run through a cancellation of `"blue"` and a
graceful shutdown. -/
def spared : Pool FairSemaphore Nat :=
  (poolMachine FairSemaphore Nat (.manager 1 1 "pool")).after (fun _ a => !meansTask 0 {"red"} a)
    (.call (.clone 0) :: .call (.submit 0 {"red"} (.ready 7)) :: stepping [1, 1, 1, 1, 1, 1, 1, 1] ++
      .call (.cancelLabels 0 {"blue"}) :: stepping [0, 0, 0, 0, 0, 0, 0, 0, 0] ++
      stepping [2, 2, 2, 2] ++ .call (.shutdown 1 .graceful) :: stepping [4, 4, 4, 3, 3, 3])
    (Pool.new _ _ (.manager 1 1 "pool"))

/-- A graceful shutdown finds it in the queue, and the dispatcher drops it. -/
def leftUnstarted : Pool FairSemaphore Nat :=
  (poolMachine FairSemaphore Nat (.manager 1 1 "pool")).after
    (fun s a => !meansTask 0 {"red"} a && keepsDispatchers s a)
    (.call (.clone 0) :: .call (.submit 0 {"red"} (.ready 7)) :: stepping [1, 1, 1, 1, 1, 1, 1, 1] ++
      .call (.shutdown 1 .graceful) :: stepping [2, 2, 2, 0, 0, 0, 0])
    (Pool.new _ _ (.manager 1 1 "pool"))

theorem unmeant_task_keeps_its_outcome_spared :
    ((spared.shared.tasks 0).sender = .used (.ok 7) ∧ spared.shared.isCancelled 0 = false ∧
      KeepsOutcome spared 0) ∧
      (leftUnstarted.shared.tasks 0).sender = .dropped ∧ leftUnstarted.shared.token = true := by
  have hreach : (poolMachine FairSemaphore Nat (.manager 1 1 "pool")).Reachable
      (fun _ a => meansTask 0 {"red"} a = false) spared := by
    refine Machine.Steps.mono ?_ (Machine.steps_after _ (fun _ a => !meansTask 0 {"red"} a) _ _)
    intro s a h
    simpa using h
  have hboth : (poolMachine FairSemaphore Nat (.manager 1 1 "pool")).Reachable
      (fun s a => (!meansTask 0 {"red"} a && keepsDispatchers s a) = true) leftUnstarted :=
    Machine.steps_after _ _ _ _
  obtain ⟨hflag, houtcome, -⟩ := unmeant_task_keeps_its_outcome FairSemaphore Nat
    (.manager 1 1 "pool") 0 {"red"} spared hreach (by decide) (by rfl)
  obtain ⟨-, -, hshut⟩ := unmeant_task_keeps_its_outcome FairSemaphore Nat
    (.manager 1 1 "pool") 0 {"red"} leftUnstarted
    (hboth.mono fun s a h => by simpa using (Bool.and_eq_true_iff.mp h).1) (by decide) (by rfl)
  have hunstarted : Unstarted leftUnstarted 0 := by
    have hnobody : leftUnstarted.procs.all (fun p => p.carries != some 0) = true := by decide
    intro pid w hw
    simpa [Proc.carries] using List.all_eq_true.mp hnobody _ (List.mem_of_getElem? hw)
  exact ⟨⟨rfl, hflag, houtcome (by decide)⟩, rfl,
    hshut (hboth.mono fun s a h => (Bool.and_eq_true_iff.mp h).2) rfl hunstarted rfl⟩

end FuturesOrchestra
