import FuturesOrchestra.Proofs.Evolution

/-!
# Who requests a cancellation

The cancel flag of a task is raised by a handle, by a label cancellation or by
the sweep of a forceful shutdown, and by nothing else.
-/

namespace FuturesOrchestra

open Interleaving

variable {σ R : Type} {cfg : PoolConfig} {pid t : Nat} {sh sh' : Shared σ R}
  {sp : Option (Proc R)}

/-- The next step of the process requests the cancellation of task `t`. -/
def Proc.cancels (t : Nat) : Proc R → Bool
  | .shutdown c =>
    match c.pc with
    | .cancelAll (u :: _) => u == t
    | _ => false
  | .labelCancel c =>
    match c.pc with
    | .cancelAll (u :: _) => u == t
    | _ => false
  | _ => false

/-- The call requests the cancellation of task `t` when it begins. -/
def Call.cancels (t : Nat) : Call R → Bool
  | .cancel u => u == t
  | _ => false

/-- The event requests the cancellation of task `t`. -/
def requestsCancel (t : Nat) (s : Pool σ R) : PoolEvent R → Bool
  | .run _ pid => (s.procs[pid]?).any (Proc.cancels t)
  | .call c => c.cancels t

theorem Shared.isCancelled_cancel {u : Nat} (h : (sh.modifyTask u Task.cancel).isCancelled t = true) :
    sh.isCancelled t = true ∨ (u == t) = true := by
  by_cases ht : t = u
  · exact .inr (by simp [ht])
  · exact .inl (by simpa [Shared.isCancelled, ht] using h)

theorem Shared.isCancelled_createTask {labels : Finset TaskLabel} {future : TaskFuture R}
    (h : (sh.createTask labels future).isCancelled t = true) : sh.isCancelled t = true := by
  by_cases ht : t = sh.nextTaskId
  · simp [Shared.isCancelled, ht, Task.isCancelled, Task.new, TaskCore.new] at h
  · simpa [Shared.isCancelled, ht] using h

theorem Call.isCancelled_of_enter {c : Call R} (h : c.enter sh = some (sh', sp))
    (hc : sh'.isCancelled t = true) : sh.isCancelled t = true ∨ c.cancels t = true := by
  revert h
  fun_cases Call.enter sh c
  all_goals rintro ⟨⟩
  case case5 u _ => exact Shared.isCancelled_cancel hc
  case case7 =>
    have hkept : ∀ task : Task R, task.dropReceiver.isCancelled = task.isCancelled := fun _ => rfl
    rw [Shared.isCancelled, Shared.modifyTask_kept Task.isCancelled hkept] at hc
    exact .inl hc
  all_goals exact .inl hc

variable [Semaphore σ]

theorem SubmitStep.isCancelled_kept {kind : PoolKind} {c c' : SubmitCall R}
    (h : SubmitStep kind pid sh c sh' c' sp) (hc : sh'.isCancelled t = true) :
    sh.isCancelled t = true := by
  cases h with
  | create | createScan => exact Shared.isCancelled_createTask hc
  | reject | selectCancelled | abandon | pushFails =>
    rwa [Shared.isCancelled, Shared.withdraw_kept Task.isCancelled Task.dropSender_isCancelled
      fun _ => rfl] at hc
  | @push u lane l =>
    have hkept : ((sh.setLane lane { l with items := l.items ++ [u] }).modifyTask u
        Task.accept).isCancelled t = sh.isCancelled t :=
      Shared.modifyTask_kept Task.isCancelled fun _ => rfl
    exact hkept ▸ hc
  | @spawn u =>
    have hkept : (sh.modifyTask u Task.accept).isCancelled t = sh.isCancelled t :=
      Shared.modifyTask_kept Task.isCancelled fun _ => rfl
    exact hkept ▸ hc
  | _ => exact hc

theorem LoopStep.isCancelled_kept {d d' : DispatcherLoop} (h : LoopStep cfg pid sh d sh' d' sp) :
    sh'.isCancelled t = sh.isCancelled t := by
  cases h with
  | recvDiscard | guardStop | exitHand | drain =>
    exact Shared.modifyTask_kept Task.isCancelled Task.dropSender_isCancelled
  | cancelSend => exact Shared.modifyTask_kept Task.isCancelled (Task.send_isCancelled _)
  | _ => rfl

theorem WrapperStep.isCancelled_kept {w w' : Wrapper R} (h : WrapperStep cfg sh w sh' w') :
    sh'.isCancelled t = sh.isCancelled t := by
  cases h with
  | pollPending | pollReady | pollPanicked | finish =>
    exact Shared.modifyTask_kept Task.isCancelled fun _ => rfl
  | send | sendUnwind => exact Shared.modifyTask_kept Task.isCancelled (Task.send_isCancelled _)
  | unwind => exact Shared.modifyTask_kept Task.isCancelled Task.dropSender_isCancelled
  | _ => rfl

omit [Semaphore σ] in
theorem Proc.CallStep.isCancelled_kept {b : Signal} {p p' : Proc R}
    (h : Proc.CallStep cfg b pid sh p sh' p' sp) (hc : sh'.isCancelled t = true) :
    sh.isCancelled t = true ∨ p.cancels t = true := by
  cases h with
  | shutdown hstep =>
    cases hstep with
    | cancelTask hpc => simpa [Proc.cancels, hpc] using Shared.isCancelled_cancel hc
    | dropSelf _ hdrop => cases hdrop <;> exact .inl hc
    | _ => exact .inl hc
  | drop _ hstep => cases hstep <;> exact .inl hc
  | labelCancel hstep =>
    cases hstep with
    | cancelTask hpc => simpa [Proc.cancels, hpc] using Shared.isCancelled_cancel hc
    | _ => exact .inl hc
  | addHandler hstep => cases hstep <;> exact .inl hc
  | notifier hstep => cases hstep <;> exact .inl hc

/-- A process step raises the cancel flag of a task only when it requests that. -/
theorem Proc.isCancelled_of_run {b : Signal} {p p' : Proc R}
    (h : Proc.run cfg b pid sh p = some (sh', p', sp)) (hc : sh'.isCancelled t = true) :
    sh.isCancelled t = true ∨ p.cancels t = true := by
  rcases Proc.split_of_run h with ⟨c, c', rfl, rfl, hstep⟩ | ⟨d, d', rfl, rfl, hstep⟩ |
    ⟨w, w', rfl, rfl, hstep, -⟩ | hstep
  · exact .inl (hstep.isCancelled_kept hc)
  · exact .inl (hstep.isCancelled_kept ▸ hc)
  · exact .inl (hstep.isCancelled_kept ▸ hc)
  · exact hstep.isCancelled_kept hc

/-- A step raises the cancel flag of a task only when it requests that. -/
theorem requested_of_cancelled {s s' : Pool σ R} {a : PoolEvent R}
    (h : (poolMachine σ R cfg).step s a = some s') (hc : s'.shared.isCancelled t = true) :
    s.shared.isCancelled t = true ∨ requestsCancel t s a = true := by
  cases a with
  | run b pid =>
    obtain ⟨p, sh, p', sp, hp, hrun, rfl⟩ := Program.step_run h
    simpa [requestsCancel, hp] using Proc.isCancelled_of_run hrun hc
  | call c =>
    obtain ⟨sh, sp, hcall, rfl⟩ := Program.step_call h
    exact Call.isCancelled_of_enter hcall hc

end FuturesOrchestra
