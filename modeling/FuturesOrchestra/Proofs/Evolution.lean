import FuturesOrchestra.Proofs.Steps

/-!
# What never goes back

The shared state only evolves in one direction: flags are raised, ids are handed
out, a result sender is used or dropped once. `Shared.Evolves` is that preorder.
Every step of a pool follows it, and so does every run, which is how a fact about
one state of a run reaches the later ones.
-/

namespace FuturesOrchestra

open Interleaving

variable {σ R : Type} {cfg : PoolConfig} {pid t : Nat} {sh sh' sh'' : Shared σ R}
  {sp : Option (Proc R)}

/-- A change of one task leaves alone what the change itself leaves alone. -/
theorem Shared.modifyTask_kept {α : Type} (g : Task R → α) {u : Nat} {f : Task R → Task R}
    (hf : ∀ task, g (f task) = g task) :
    g ((sh.modifyTask u f).tasks t) = g (sh.tasks t) := by
  by_cases ht : t = u
  · simp [ht, hf]
  · simp [ht]

theorem Shared.withdraw_kept {α : Type} (g : Task R → α) (hsender : ∀ task, g task.dropSender = g task)
    (hreceiver : ∀ task, g task.dropReceiver = g task) (c : SubmitCall R) (u : Nat) :
    g ((sh.withdraw c u).tasks t) = g (sh.tasks t) :=
  calc g ((sh.withdraw c u).tasks t)
      = g ((sh.modifyTask u Task.dropSender).tasks t) := modifyTask_kept g hreceiver
    _ = g (sh.tasks t) := modifyTask_kept g hsender

namespace Task

variable {a b : Task R}

theorem dropSender_isCancelled (task : Task R) : task.dropSender.isCancelled = task.isCancelled := by
  unfold dropSender
  split <;> rfl

theorem dropSender_accepted (task : Task R) : task.dropSender.accepted = task.accepted := by
  unfold dropSender
  split <;> rfl

theorem dropSender_isFinished (task : Task R) : task.dropSender.isFinished = task.isFinished := by
  unfold dropSender
  split <;> rfl

theorem dropSender_polls (task : Task R) : task.dropSender.polls = task.polls := by
  unfold dropSender
  split <;> rfl

theorem send_isCancelled (result : Except PoolError R) (task : Task R) :
    (task.send result).isCancelled = task.isCancelled := by
  unfold send
  split <;> rfl

theorem send_accepted (result : Except PoolError R) (task : Task R) :
    (task.send result).accepted = task.accepted := by
  unfold send
  split <;> rfl

theorem send_future (result : Except PoolError R) (task : Task R) :
    (task.send result).future = task.future := by
  unfold send
  split <;> rfl

theorem send_isFinished (result : Except PoolError R) (task : Task R) :
    (task.send result).isFinished = task.isFinished := by
  unfold send
  split <;> rfl

theorem send_polls (result : Except PoolError R) (task : Task R) :
    (task.send result).polls = task.polls := by
  unfold send
  split <;> rfl

theorem Touched.accepted (h : a.Touched b) : b.accepted = a.accepted := by
  cases h <;> rfl

theorem Touched.isFinished (h : a.Touched b) : b.isFinished = a.isFinished := by
  cases h <;> rfl

theorem Touched.polls (h : a.Touched b) : b.polls = a.polls := by
  cases h <;> rfl

end Task

/-- What can become of a task that exists. -/
structure Task.Evolves (a b : Task R) : Prop where
  taskId : b.core.taskId = a.core.taskId
  labels : b.core.labels = a.core.labels
  future : b.future = a.future
  cancelled : a.isCancelled = true → b.isCancelled = true
  finished : a.isFinished = true → b.isFinished = true
  polls : a.polls ≤ b.polls
  sender : a.sender = .live ∨ b.sender = a.sender
  receiver : b.receiver = true → a.receiver = true
  accepted : a.accepted = true → b.accepted = true

namespace Task.Evolves

variable {a b c : Task R}

theorem refl (a : Task R) : a.Evolves a :=
  ⟨rfl, rfl, rfl, id, id, le_rfl, .inr rfl, id, id⟩

theorem trans (hab : a.Evolves b) (hbc : b.Evolves c) : a.Evolves c where
  taskId := hbc.taskId.trans hab.taskId
  labels := hbc.labels.trans hab.labels
  future := hbc.future.trans hab.future
  cancelled h := hbc.cancelled (hab.cancelled h)
  finished h := hbc.finished (hab.finished h)
  polls := hab.polls.trans hbc.polls
  sender := by
    rcases hab.sender with h | h
    · exact .inl h
    · rw [← h]
      exact hbc.sender
  receiver h := hab.receiver (hbc.receiver h)
  accepted h := hbc.accepted (hab.accepted h)

theorem cancel (a : Task R) : a.Evolves a.cancel :=
  ⟨rfl, rfl, rfl, fun _ => rfl, id, le_rfl, .inr rfl, id, id⟩

theorem markFinished (a : Task R) : a.Evolves a.markFinished :=
  ⟨rfl, rfl, rfl, id, fun _ => rfl, le_rfl, .inr rfl, id, id⟩

theorem dropReceiver (a : Task R) : a.Evolves a.dropReceiver :=
  ⟨rfl, rfl, rfl, id, id, le_rfl, .inr rfl, nofun, id⟩

theorem accept (a : Task R) : a.Evolves a.accept :=
  ⟨rfl, rfl, rfl, id, id, le_rfl, .inr rfl, id, fun _ => rfl⟩

theorem countPoll (a : Task R) : a.Evolves a.countPoll :=
  ⟨rfl, rfl, rfl, id, id, Nat.le_succ _, .inr rfl, id, id⟩

theorem dropSender (a : Task R) : a.Evolves a.dropSender := by
  unfold Task.dropSender
  split
  · next h => exact ⟨rfl, rfl, rfl, id, id, le_rfl, .inl h, id, id⟩
  · exact refl a

theorem send (result : Except PoolError R) (a : Task R) : a.Evolves (a.send result) := by
  unfold Task.send
  split
  · next h => exact ⟨rfl, rfl, rfl, id, id, le_rfl, .inl h, id, id⟩
  · exact refl a

theorem touched (h : a.Touched b) : a.Evolves b := by
  cases h with
  | refl => exact refl a
  | cancel => exact cancel a
  | dropReceiver => exact dropReceiver a

end Task.Evolves

/-- How the shared state evolves. -/
structure Shared.Evolves (sh sh' : Shared σ R) : Prop where
  nextTaskId : sh.nextTaskId ≤ sh'.nextTaskId
  tasks : ∀ t, t < sh.nextTaskId → (sh.tasks t).Evolves (sh'.tasks t)
  token : sh.token = true → sh'.token = true
  lanes : sh'.lanes.length = sh.lanes.length
  shards : sh'.shards.length = sh.shards.length

namespace Shared.Evolves

theorem refl (sh : Shared σ R) : sh.Evolves sh :=
  ⟨le_rfl, fun _ _ => .refl _, id, rfl, rfl⟩

theorem trans (h : sh.Evolves sh') (k : sh'.Evolves sh'') : sh.Evolves sh'' where
  nextTaskId := h.nextTaskId.trans k.nextTaskId
  tasks t ht := (h.tasks t ht).trans (k.tasks t (ht.trans_le h.nextTaskId))
  token htoken := k.token (h.token htoken)
  lanes := k.lanes.trans h.lanes
  shards := k.shards.trans h.shards

theorem quiet (h : sh.Quiet sh') : sh.Evolves sh' where
  nextTaskId := h.nextTaskId.ge
  tasks t _ := .touched (h.tasks t)
  token := h.token
  lanes := by rw [h.lanes]
  shards := by rw [h.shards]

/-- A change of the other fields. -/
theorem of_eq (htoken : sh'.token = sh.token) (hnext : sh'.nextTaskId = sh.nextTaskId)
    (htasks : sh'.tasks = sh.tasks) (hlanes : sh'.lanes.length = sh.lanes.length)
    (hshards : sh'.shards.length = sh.shards.length) : sh.Evolves sh' where
  nextTaskId := hnext.ge
  tasks _ _ := htasks ▸ .refl _
  token h := htoken ▸ h
  lanes := hlanes
  shards := hshards

theorem modifyTask {f : Task R → Task R} (t : Nat)
    (hf : ∀ task : Task R, task.Evolves (f task)) : sh.Evolves (sh.modifyTask t f) where
  nextTaskId := le_rfl
  tasks u _ := by
    by_cases hu : u = t
    · simpa [hu] using hf (sh.tasks t)
    · simpa [hu] using Task.Evolves.refl (sh.tasks u)
  token := id
  lanes := rfl
  shards := rfl

theorem createTask (labels : Finset TaskLabel) (future : TaskFuture R) :
    sh.Evolves (sh.createTask labels future) where
  nextTaskId := Nat.le_succ _
  tasks t ht := by simpa [ht.ne] using Task.Evolves.refl (sh.tasks t)
  token := id
  lanes := rfl
  shards := rfl

theorem withdraw (c : SubmitCall R) (t : Nat) : sh.Evolves (sh.withdraw c t) :=
  ((modifyTask t Task.Evolves.dropSender).trans (modifyTask t Task.Evolves.dropReceiver)).trans
    (of_eq rfl rfl rfl rfl rfl)

variable [Semaphore σ]

theorem submit {kind : PoolKind} {c c' : SubmitCall R} (h : SubmitStep kind pid sh c sh' c' sp) :
    sh.Evolves sh' := by
  cases h with
  | create | createScan => exact createTask _ _
  | @spawn t =>
    refine trans (modifyTask t Task.Evolves.accept) ?_
    exact of_eq rfl rfl rfl rfl rfl
  | reject => exact withdraw _ _
  | selectCancelled | abandon | pushFails =>
    refine trans ?_ (withdraw _ _)
    exact of_eq rfl rfl rfl rfl rfl
  | @push t lane l =>
    have hpush : sh.Evolves (sh.setLane lane { l with items := l.items ++ [t] }) :=
      of_eq rfl rfl rfl (by simp) rfl
    refine (hpush.trans (modifyTask t Task.Evolves.accept)).trans ?_
    exact of_eq rfl rfl rfl rfl rfl
  | _ => exact of_eq rfl rfl rfl (by simp) (by simp)

theorem loop {d d' : DispatcherLoop} (h : LoopStep cfg pid sh d sh' d' sp) : sh.Evolves sh' := by
  cases h with
  | recvDiscard | drain =>
    refine trans ?_ (modifyTask _ Task.Evolves.dropSender)
    exact of_eq rfl rfl rfl (by simp) rfl
  | guardStop | exitHand => exact modifyTask _ Task.Evolves.dropSender
  | cancelSend => exact modifyTask _ (Task.Evolves.send _)
  | _ => exact of_eq rfl rfl rfl (by simp) (by simp)

theorem wrapper {w w' : Wrapper R} (h : WrapperStep cfg sh w sh' w') : sh.Evolves sh' := by
  cases h with
  | pollPending | pollReady | pollPanicked => exact modifyTask _ Task.Evolves.countPoll
  | send | sendUnwind => exact modifyTask _ (Task.Evolves.send _)
  | finish => exact modifyTask _ Task.Evolves.markFinished
  | unwind =>
    have hrelease : sh.Evolves sh.releasePermit := of_eq rfl rfl rfl rfl rfl
    refine (hrelease.trans (modifyTask w.task Task.Evolves.dropSender)).trans ?_
    exact of_eq rfl rfl rfl rfl rfl
  | _ => exact of_eq rfl rfl rfl (by simp) (by simp)

theorem proc {p p' : Proc R} (h : Proc.Step cfg pid sh p sh' p' sp) : sh.Evolves sh' := by
  cases h with
  | submit hstep => exact submit hstep
  | loop hstep => exact loop hstep
  | wrapper hstep => exact wrapper hstep
  | bystander _ _ hstep => exact quiet hstep.1

/-- The shared state evolves over every run. -/
theorem steps {ok : Pool σ R → PoolEvent R → Prop} {s s' : Pool σ R}
    (h : (poolMachine σ R cfg).Steps ok s s') : s.shared.Evolves s'.shared := by
  refine Program.induct (I := fun u => s.shared.Evolves u.shared) ?_ ?_ h (refl _)
  · intro u b pid p sh p' sp hu _ _ hrun
    exact hu.trans (proc (Proc.step_of_run hrun))
  · intro u c sh sp hu _ hcall
    exact hu.trans (quiet (Call.enter_quiet hcall).1)

end Shared.Evolves

end FuturesOrchestra
