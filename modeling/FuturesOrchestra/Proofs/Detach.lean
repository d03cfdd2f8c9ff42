import FuturesOrchestra.Lib.Schedules
import FuturesOrchestra.Proofs.Evolution

/-!
# Detaching a handle

A task whose handle is dropped or detached runs as before. Two runs are compared:
one in which handles go, and one with the same schedule in which they stay. They
agree in everything but in who holds a result receiver, unless a value that
nobody takes panics in its destructor.
-/

namespace FuturesOrchestra

open Interleaving

variable {σ R L : Type} {cfg : PoolConfig} {pid t : Nat} {sh sh' : Shared σ R}
  {sp : Option (Proc R)} {rcv : Nat → Bool}

/-! ## States that differ in their receivers -/

def Task.withReceiver (task : Task R) (held : Bool) : Task R := { task with receiver := held }

/-- The same state with other receivers. -/
def Shared.withReceivers (sh : Shared σ R) (rcv : Nat → Bool) : Shared σ R :=
  { sh with tasks := fun t => (sh.tasks t).withReceiver (rcv t) }

/-- The receivers that are gone here and held in `rcv` are those of tasks whose
result does no harm when it is dropped. -/
def Shared.Missing (sh : Shared σ R) (rcv : Nat → Bool) : Prop :=
  ∀ t, (sh.tasks t).receiver = rcv t ∨
    ((sh.tasks t).receiver = false ∧ (sh.tasks t).future.resultDropPanics = false)

namespace Shared

section Fields

variable (sh : Shared σ R) (rcv : Nat → Bool) (t : Nat)

@[simp] theorem withReceivers_token : (sh.withReceivers rcv).token = sh.token := rfl

@[simp] theorem withReceivers_guards : (sh.withReceivers rcv).guards = sh.guards := rfl

@[simp] theorem withReceivers_lanes : (sh.withReceivers rcv).lanes = sh.lanes := rfl

@[simp] theorem withReceivers_shards : (sh.withReceivers rcv).shards = sh.shards := rfl

@[simp] theorem withReceivers_concurrencyGate :
    (sh.withReceivers rcv).concurrencyGate = sh.concurrencyGate := rfl

@[simp] theorem withReceivers_queueGate : (sh.withReceivers rcv).queueGate = sh.queueGate := rfl

@[simp] theorem withReceivers_queueSenders :
    (sh.withReceivers rcv).queueSenders = sh.queueSenders := rfl

@[simp] theorem withReceivers_notifier : (sh.withReceivers rcv).notifier = sh.notifier := rfl

@[simp] theorem withReceivers_queueClosed :
    (sh.withReceivers rcv).queueClosed = sh.queueClosed := rfl

@[simp] theorem withReceivers_active : (sh.withReceivers rcv).active = sh.active := rfl

@[simp] theorem withReceivers_isFinished :
    (sh.withReceivers rcv).isFinished = sh.isFinished := rfl

@[simp] theorem withReceivers_isCancelled :
    (sh.withReceivers rcv).isCancelled t = sh.isCancelled t := rfl

@[simp] theorem withReceivers_future :
    ((sh.withReceivers rcv).tasks t).future = (sh.tasks t).future := rfl

@[simp] theorem withReceivers_polls :
    ((sh.withReceivers rcv).tasks t).polls = (sh.tasks t).polls := rfl

end Fields

theorem withReceivers_lookupSender (sh : Shared σ R) (rcv : Nat → Bool) :
    (sh.withReceivers rcv).lookupSender =
      (sh.lookupSender.1.withReceivers rcv, sh.lookupSender.2) := rfl

/-- A change of one task that does not look at its receiver. -/
theorem modifyTask_withReceivers {f : Task R → Task R}
    (hf : ∀ (task : Task R) held, f (task.withReceiver held) = (f task).withReceiver held)
    (sh : Shared σ R) (rcv : Nat → Bool) (t : Nat) :
    (sh.withReceivers rcv).modifyTask t f = (sh.modifyTask t f).withReceivers rcv := by
  have htasks : (fun u => if u = t then f ((sh.tasks u).withReceiver (rcv u))
        else (sh.tasks u).withReceiver (rcv u)) =
      fun u => (if u = t then f (sh.tasks u) else sh.tasks u).withReceiver (rcv u) := by
    funext u
    split
    · exact hf _ _
    · rfl
  simp only [modifyTask, withReceivers, htasks]

theorem dropReceiver_withReceivers (sh : Shared σ R) (rcv : Nat → Bool) (t : Nat) :
    (sh.withReceivers rcv).modifyTask t Task.dropReceiver =
      (sh.modifyTask t Task.dropReceiver).withReceivers (Function.update rcv t false) := by
  have htasks : (fun u => if u = t then Task.dropReceiver ((sh.tasks u).withReceiver (rcv u))
        else (sh.tasks u).withReceiver (rcv u)) =
      fun u => (if u = t then (sh.tasks u).dropReceiver else sh.tasks u).withReceiver
        (Function.update rcv t false u) := by
    funext u
    by_cases hu : u = t
    · subst hu
      simp [Task.dropReceiver, Task.withReceiver]
    · simp [hu]
  simp only [modifyTask, withReceivers, htasks]

theorem createTask_withReceivers (sh : Shared σ R) (rcv : Nat → Bool) (labels : Finset TaskLabel)
    (future : TaskFuture R) :
    (sh.withReceivers rcv).createTask labels future =
      (sh.createTask labels future).withReceivers (Function.update rcv sh.nextTaskId true) := by
  have htasks : (fun u => if u = sh.nextTaskId then
        (Task.new (.ofNat sh.nextTaskId) labels future : Task R)
        else (sh.tasks u).withReceiver (rcv u)) =
      fun u => (if u = sh.nextTaskId then Task.new (.ofNat sh.nextTaskId) labels future
        else sh.tasks u).withReceiver (Function.update rcv sh.nextTaskId true u) := by
    funext u
    by_cases hu : u = sh.nextTaskId
    · subst hu
      simp [Task.new, Task.withReceiver]
    · simp [hu]
  simp only [createTask, modifyTask, withReceivers]
  exact congrArg (fun tasks => { sh with tasks := tasks, nextTaskId := sh.nextTaskId + 1 }) htasks

namespace Missing

theorem modifyTask {f : Task R → Task R} (hm : sh.Missing rcv) (t : Nat)
    (hreceiver : ∀ task, (f task).receiver = task.receiver)
    (hfuture : ∀ task, (f task).future = task.future) : (sh.modifyTask t f).Missing rcv := by
  intro u
  have hu := hm u
  by_cases ht : u = t
  · simpa [ht, hreceiver, hfuture] using ht ▸ hu
  · simpa [ht] using hu

theorem dropReceiver (hm : sh.Missing rcv) (t : Nat) :
    (sh.modifyTask t Task.dropReceiver).Missing (Function.update rcv t false) := by
  intro u
  by_cases ht : u = t
  · simp [ht, Task.dropReceiver]
  · simpa [ht] using hm u

theorem lookup {found : Bool} (h : sh.lookupSender = (sh', found)) (hm : sh.Missing rcv) :
    sh'.Missing rcv := by
  obtain ⟨rfl, -⟩ := Shared.lookupSender_eq h
  exact hm

theorem createTask (hm : sh.Missing rcv) (labels : Finset TaskLabel) (future : TaskFuture R) :
    (sh.createTask labels future).Missing (Function.update rcv sh.nextTaskId true) := by
  intro u
  by_cases ht : u = sh.nextTaskId
  · simp [ht, Task.new]
  · simpa [ht] using hm u

end Missing

end Shared

namespace Task

variable (task : Task R) (held : Bool) (result : Except PoolError R)

theorem dropSender_withReceiver :
    (task.withReceiver held).dropSender = task.dropSender.withReceiver held := by
  cases hsender : task.sender <;> simp [dropSender, withReceiver, hsender]

theorem send_withReceiver :
    (task.withReceiver held).send result = (task.send result).withReceiver held := by
  cases hsender : task.sender <;> simp [send, withReceiver, hsender]

theorem dropSender_receiver : task.dropSender.receiver = task.receiver := by
  unfold dropSender
  split <;> rfl

theorem send_receiver : (task.send result).receiver = task.receiver := by
  unfold send
  split <;> rfl

theorem dropSender_future : task.dropSender.future = task.future := by
  unfold dropSender
  split <;> rfl

end Task

/-! ## What one process does -/

/-- The second step does what the first one does, next to other receivers. -/
def Next.Follows (next next' : Next σ R L) : Prop :=
  ∀ sh l sp, next = some (sh, l, sp) →
    ∃ rcv, sh.Missing rcv ∧ next' = some (sh.withReceivers rcv, l, sp)

namespace Next.Follows

variable {next next' : Next σ R L} {l : L}

theorem none : Follows (none : Next σ R L) next' := by
  rintro sh l sp ⟨⟩

theorem some (hm : sh.Missing rcv) :
    Follows (some (sh, l, sp) : Next σ R L) (some (sh.withReceivers rcv, l, sp)) := by
  rintro _ _ _ ⟨⟩
  exact ⟨rcv, hm, rfl⟩

theorem toProc {f : L → Proc R} (h : Follows next next') :
    Follows (next.toProc f) (next'.toProc f) := by
  intro sh p sp hnext
  obtain ⟨l, hl, rfl⟩ := Next.toProc_eq_some hnext
  obtain ⟨rcv, hm, hl'⟩ := h sh l sp hl
  exact ⟨rcv, hm, by rw [hl']; rfl⟩

end Next.Follows

theorem Shared.Missing.withdraw (hm : sh.Missing rcv) (c : SubmitCall R) (t : Nat) :
    (sh.withdraw c t).Missing (Function.update rcv t false) ∧
      (sh.withReceivers rcv).withdraw c t =
        (sh.withdraw c t).withReceivers (Function.update rcv t false) := by
  refine ⟨?_, ?_⟩
  · exact (hm.modifyTask t Task.dropSender_receiver Task.dropSender_future).dropReceiver t
  · rw [Shared.withdraw, Shared.modifyTask_withReceivers Task.dropSender_withReceiver,
      Shared.dropReceiver_withReceivers]
    rfl

theorem SubmitCall.follows_reject {c : SubmitCall R} (hm : sh.Missing rcv) (t : Nat)
    (e : PoolError) : (c.reject sh t e).Follows (c.reject (sh.withReceivers rcv) t e) := by
  obtain ⟨hm', heq⟩ := hm.withdraw c t
  simp only [SubmitCall.reject, Shared.dropTask_eq, heq]
  exact .some hm'

theorem SubmitCall.follows_accept {c : SubmitCall R} (hm : sh.Missing rcv) (t : Nat)
    (sp : Option (Proc R)) : (c.accept sh t sp).Follows (c.accept (sh.withReceivers rcv) t sp) := by
  simp only [SubmitCall.accept]
  rw [Shared.modifyTask_withReceivers fun _ _ => rfl]
  exact .some (hm.modifyTask t (fun _ => rfl) fun _ => rfl)

theorem SubmitCall.follows_enqueue [Semaphore σ] {c : SubmitCall R} (hm : sh.Missing rcv)
    (t lane : Nat) : (c.enqueue sh t lane).Follows (c.enqueue (sh.withReceivers rcv) t lane) := by
  fun_cases SubmitCall.enqueue sh c t lane with
  | case1 => exact .none
  | case2 l hlane hrecv =>
    simp only [SubmitCall.enqueue, Shared.withReceivers_lanes, hlane, if_pos hrecv]
    have hpush : (sh.setLane lane { l with items := l.items ++ [t] }).Missing rcv := hm
    exact SubmitCall.follows_accept hpush t _
  | case3 l hlane hrecv =>
    simp only [SubmitCall.enqueue, Shared.withReceivers_lanes, hlane, if_neg hrecv]
    have hfree : sh.releaseSlot.releaseSlot.Missing rcv := hm
    exact SubmitCall.follows_reject hfree t _

theorem SubmitCall.follows_abandon [Semaphore σ] {c : SubmitCall R} (hm : sh.Missing rcv)
    (t : Nat) : (c.abandon pid sh t).Follows (c.abandon pid (sh.withReceivers rcv) t) := by
  have hleft : ({ sh with queueGate := Semaphore.dropAcquire pid sh.queueGate }).Missing rcv := hm
  obtain ⟨hm', heq⟩ := hleft.withdraw c t
  intro sh' c' sp h
  simp only [SubmitCall.abandon, Shared.dropTask_eq] at h ⊢
  cases h
  refine ⟨_, hm', ?_⟩
  rw [← heq]
  rfl

variable [Semaphore σ]

theorem SubmitCall.follows_selectCancelled {c : SubmitCall R} (hm : sh.Missing rcv) (t : Nat) :
    (c.selectCancelled pid sh t).Follows (c.selectCancelled pid (sh.withReceivers rcv) t) := by
  have hleft : ({ sh with queueGate := Semaphore.dropAcquire pid sh.queueGate }).Missing rcv := hm
  exact SubmitCall.follows_reject hleft t _

theorem QueueProducer.follows_send {c : SubmitCall R} (hm : sh.Missing rcv) :
    (QueueProducer.send pid sh c).Follows (QueueProducer.send pid (sh.withReceivers rcv) c) := by
  fun_cases QueueProducer.send pid sh c
  all_goals simp only [QueueProducer.send, Shared.withReceivers_token,
    Shared.withReceivers_queueClosed, Shared.withReceivers_queueGate, *]
  all_goals first
    | exact .none
    | exact .some hm
    | exact SubmitCall.follows_reject hm _ _
    | exact SubmitCall.follows_selectCancelled hm _
    | exact SubmitCall.follows_enqueue hm _ _

theorem RlxdQueueProducer.follows_send {c : SubmitCall R} (hm : sh.Missing rcv) :
    (RlxdQueueProducer.send pid sh c).Follows
      (RlxdQueueProducer.send pid (sh.withReceivers rcv) c) := by
  fun_cases RlxdQueueProducer.send pid sh c
  all_goals simp only [RlxdQueueProducer.send, Shared.withReceivers_token,
    Shared.withReceivers_queueClosed, Shared.withReceivers_queueGate, *]
  all_goals first
    | exact .none
    | exact .some hm
    | exact SubmitCall.follows_reject hm _ _
    | exact SubmitCall.follows_selectCancelled hm _
    | exact SubmitCall.follows_enqueue hm _ _

theorem FuturePoolManager.follows_submit {c : SubmitCall R} (hm : sh.Missing rcv) :
    (FuturePoolManager.submit pid sh c).Follows
      (FuturePoolManager.submit pid (sh.withReceivers rcv) c) := by
  fun_cases FuturePoolManager.submit pid sh c
  all_goals simp only [FuturePoolManager.submit, Shared.withReceivers_token,
    Shared.withReceivers_queueClosed, Shared.createTask_withReceivers, *]
  all_goals first
    | exact .none
    | exact .some hm
    | exact .some (hm.createTask _ _)
    | exact QueueProducer.follows_send hm

theorem FuturePoolManagerRlxd.follows_submitInner {c : SubmitCall R} (hm : sh.Missing rcv) :
    (FuturePoolManagerRlxd.submitInner pid sh c).Follows
      (FuturePoolManagerRlxd.submitInner pid (sh.withReceivers rcv) c) := by
  fun_cases FuturePoolManagerRlxd.submitInner pid sh c
  all_goals simp only [FuturePoolManagerRlxd.submitInner, Shared.withReceivers_token,
    Shared.withReceivers_queueClosed, Shared.withReceivers_queueGate,
    Shared.createTask_withReceivers, Shared.withReceivers_lanes, Shared.withReceivers_shards,
    Shared.withReceivers_concurrencyGate, Shared.withReceivers_isFinished,
    Shared.withReceivers_lookupSender, *]
  all_goals first
    | exact .none
    | exact .some hm
    | exact .some (hm.createTask _ _)
    | exact SubmitCall.follows_accept hm _ _
    | exact RlxdQueueProducer.follows_send hm
    | exact .some (Shared.Missing.lookup ‹_› hm)

omit [Semaphore σ] in
theorem Shared.send_withReceivers (sh : Shared σ R) (rcv : Nat → Bool) (t : Nat)
    (result : Except PoolError R) :
    (sh.withReceivers rcv).modifyTask t (Task.send · result) =
      (sh.modifyTask t (Task.send · result)).withReceivers rcv :=
  Shared.modifyTask_withReceivers (fun task held => task.send_withReceiver held result) sh rcv t

omit [Semaphore σ] in
theorem DispatcherLoop.follows_dropTask {d : DispatcherLoop} (hm : sh.Missing rcv) (t : Nat)
    (pc : LoopPc) : (d.dropTask sh t pc).Follows (d.dropTask (sh.withReceivers rcv) t pc) := by
  have hdrop := hm.modifyTask t Task.dropSender_receiver Task.dropSender_future
  fun_cases DispatcherLoop.dropTask sh d t pc
  all_goals simp only [DispatcherLoop.dropTask, Shared.dropTask_eq, Shared.withReceivers_future,
    Shared.modifyTask_withReceivers Task.dropSender_withReceiver, *]
  all_goals first
    | exact .none
    | exact .some hdrop

theorem DispatcherLoop.follows_preCancelled {d : DispatcherLoop} (hm : sh.Missing rcv) :
    (d.preCancelled cfg sh).Follows (d.preCancelled cfg (sh.withReceivers rcv)) := by
  fun_cases DispatcherLoop.preCancelled cfg sh d
  all_goals simp only [DispatcherLoop.preCancelled, Shared.withReceivers_future,
    Shared.withReceivers_lookupSender, Shared.send_withReceivers, reduceIte, Bool.false_eq_true, *]
  -- the future is dropped, and the loop goes back with or without its permit
  case case5 permit t hpc hdrop =>
    cases permit with
    | false => exact .some hm
    | true => exact .some hm
  all_goals first
    | exact .none
    | exact .some hm
    | exact .some (hm.modifyTask _ (Task.send_receiver · _) (Task.send_future _))
    | exact .some (Shared.Missing.lookup ‹_› hm)

theorem DispatcherLoop.follows_leave {d : DispatcherLoop} (hm : sh.Missing rcv) :
    (d.leave sh).Follows (d.leave (sh.withReceivers rcv)) := by
  fun_cases DispatcherLoop.leave sh d
  all_goals simp only [DispatcherLoop.leave, Shared.withReceivers_lanes, *]
  all_goals first
    | exact .none
    | exact .some hm
    | (refine DispatcherLoop.follows_dropTask ?_ _ _; exact hm)

omit [Semaphore σ] in
theorem DispatcherLoop.follows_launch {d : DispatcherLoop} (hm : sh.Missing rcv) :
    (d.launch sh).Follows (d.launch (sh.withReceivers rcv)) := by
  fun_cases DispatcherLoop.launch sh d
  all_goals simp only [DispatcherLoop.launch, Shared.withReceivers_lookupSender, *]
  all_goals first
    | exact .none
    | exact .some hm
    | exact .some (Shared.Missing.lookup ‹_› hm)

theorem FuturePoolManager.follows_runWorkerLoop {d : DispatcherLoop} (hm : sh.Missing rcv) :
    (FuturePoolManager.runWorkerLoop cfg pid sh d).Follows
      (FuturePoolManager.runWorkerLoop cfg pid (sh.withReceivers rcv) d) := by
  fun_cases FuturePoolManager.runWorkerLoop cfg pid sh d
  all_goals simp only [FuturePoolManager.runWorkerLoop, Shared.withReceivers_token,
    Shared.withReceivers_concurrencyGate, Shared.withReceivers_lanes,
    Shared.withReceivers_queueSenders, Shared.withReceivers_isCancelled,
    Shared.withReceivers_active, *]
  all_goals first
    | exact .none
    | exact .some hm
    | (refine DispatcherLoop.follows_dropTask ?_ _ _; exact hm)
    | exact DispatcherLoop.follows_preCancelled hm
    | exact DispatcherLoop.follows_leave hm
    | exact DispatcherLoop.follows_launch hm

theorem FuturePoolManagerRlxd.follows_runWorkerLoop {d : DispatcherLoop} (hm : sh.Missing rcv) :
    (FuturePoolManagerRlxd.runWorkerLoop cfg pid sh d).Follows
      (FuturePoolManagerRlxd.runWorkerLoop cfg pid (sh.withReceivers rcv) d) := by
  fun_cases FuturePoolManagerRlxd.runWorkerLoop cfg pid sh d
  all_goals simp only [FuturePoolManagerRlxd.runWorkerLoop, Shared.withReceivers_token,
    Shared.withReceivers_concurrencyGate, Shared.withReceivers_lanes,
    Shared.withReceivers_queueSenders, Shared.withReceivers_isCancelled,
    Shared.withReceivers_shards, Shared.withReceivers_isFinished, *]
  all_goals first
    | exact .none
    | exact .some hm
    | (refine DispatcherLoop.follows_dropTask ?_ _ _; exact hm)
    | exact DispatcherLoop.follows_preCancelled hm
    | exact DispatcherLoop.follows_leave hm
    | exact DispatcherLoop.follows_launch hm

/-! ## The wrapper -/

omit [Semaphore σ] in
theorem Wrapper.resultPanics_eq (hm : sh.Missing rcv) (t : Nat) (result : Except PoolError R) :
    Wrapper.resultPanics ((sh.withReceivers rcv).tasks t) result =
      Wrapper.resultPanics (sh.tasks t) result := by
  cases result with
  | error e => rfl
  | ok v =>
    rcases hm t with hsame | ⟨hgone, hharmless⟩
    · simp [Wrapper.resultPanics, Shared.withReceivers, Task.withReceiver, hsame]
    · simp [Wrapper.resultPanics, Shared.withReceivers, Task.withReceiver, hharmless]

omit [Semaphore σ] in
theorem Wrapper.follows_body {w : Wrapper R} (hm : sh.Missing rcv) :
    (w.body cfg sh).Follows (w.body cfg (sh.withReceivers rcv)) := by
  fun_cases Wrapper.body cfg sh w
  all_goals simp only [Wrapper.body, Wrapper.pollFuture, Wrapper.checkFlag,
    Shared.withReceivers_future, Shared.withReceivers_isCancelled, Shared.withReceivers_polls,
    Wrapper.resultPanics_eq hm, Shared.send_withReceivers,
    Shared.modifyTask_withReceivers (f := Task.countPoll) (fun _ _ => rfl), *]
  all_goals first
    | exact .none
    | exact .some hm
    | exact .some (hm.modifyTask _ (Task.send_receiver · _) (Task.send_future _))
    | exact .some (hm.modifyTask _ (fun _ => rfl) (fun _ => rfl))

theorem Wrapper.follows_unwind {w : Wrapper R} (hm : sh.Missing rcv) (tx : Bool) :
    (w.unwind sh tx).Follows (w.unwind (sh.withReceivers rcv) tx) := by
  have hdrop := hm.modifyTask w.task Task.dropSender_receiver Task.dropSender_future
  unfold Wrapper.unwind
  rw [Shared.withReceivers_future]
  split
  · exact .none
  · cases tx with
    | false => exact .some hm
    | true =>
      have heq : (sh.withReceivers rcv).releasePermit.dropTask w.task =
          (sh.releasePermit.dropTask w.task).withReceivers rcv :=
        Shared.modifyTask_withReceivers Task.dropSender_withReceiver sh.releasePermit rcv w.task
      simp only [heq, if_true]
      exact .some hdrop

theorem FuturePoolManager.follows_wrapper {w : Wrapper R} (hm : sh.Missing rcv) :
    (FuturePoolManager.wrapper cfg sh w).Follows
      (FuturePoolManager.wrapper cfg (sh.withReceivers rcv) w) := by
  fun_cases FuturePoolManager.wrapper cfg sh w
  all_goals simp only [FuturePoolManager.wrapper, Shared.withReceivers_future,
    Shared.withReceivers_active, *]
  all_goals first
    | exact .some hm
    | exact Wrapper.follows_unwind hm _
    | exact Wrapper.follows_body hm

theorem FuturePoolManagerRlxd.follows_wrapper {w : Wrapper R} (hm : sh.Missing rcv) :
    (FuturePoolManagerRlxd.wrapper cfg sh w).Follows
      (FuturePoolManagerRlxd.wrapper cfg (sh.withReceivers rcv) w) := by
  fun_cases FuturePoolManagerRlxd.wrapper cfg sh w
  all_goals simp only [FuturePoolManagerRlxd.wrapper, Shared.withReceivers_future,
    Shared.withReceivers_shards,
    Shared.modifyTask_withReceivers (f := Task.markFinished) (fun _ _ => rfl), *]
  all_goals first
    | exact .none
    | exact .some hm
    | exact .some (hm.modifyTask _ (fun _ => rfl) (fun _ => rfl))
    | exact Wrapper.follows_unwind hm _
    | exact Wrapper.follows_body hm

/-! ## The other calls -/

omit [Semaphore σ] in
theorem Shared.withReceivers_readTokens (shard : Nat) :
    (sh.withReceivers rcv).readTokens cfg shard = sh.readTokens cfg shard := rfl

omit [Semaphore σ] in
theorem Shared.withReceivers_readLen (shard : Nat) :
    (sh.withReceivers rcv).readLen cfg shard = sh.readLen cfg shard := rfl

omit [Semaphore σ] in
theorem Shared.cancel_withReceivers (sh : Shared σ R) (rcv : Nat → Bool) (t : Nat) :
    (sh.withReceivers rcv).modifyTask t Task.cancel =
      (sh.modifyTask t Task.cancel).withReceivers rcv :=
  Shared.modifyTask_withReceivers (fun _ _ => rfl) sh rcv t

omit [Semaphore σ] in
theorem Shared.withReceivers_dropManager (closed : Bool) (pc : DropPc) :
    (sh.withReceivers rcv).dropManager closed pc =
      ((sh.dropManager closed pc).1.withReceivers rcv, (sh.dropManager closed pc).2) := by
  cases pc with
  | close => cases closed <;> rfl
  | _ => rfl

omit [Semaphore σ] in
theorem Shared.Missing.dropManager (hm : sh.Missing rcv) (closed : Bool) (pc : DropPc) :
    (sh.dropManager closed pc).1.Missing rcv := by
  cases pc with
  | close => cases closed <;> exact hm
  | _ => exact hm

omit [Semaphore σ] in
theorem Shared.Missing.dropped {closed : Bool} {pc : DropPc} {rest : Bool × DropPc}
    (h : sh.dropManager closed pc = (sh', rest)) (hm : sh.Missing rcv) : sh'.Missing rcv := by
  have hdrop := hm.dropManager closed pc
  rwa [h] at hdrop

omit [Semaphore σ] in
theorem ShutdownCall.follows_step {c : ShutdownCall} (hm : sh.Missing rcv) :
    (c.step cfg sh).Follows (c.step cfg (sh.withReceivers rcv)) := by
  fun_cases ShutdownCall.step cfg sh c
  all_goals simp only [ShutdownCall.step, Shared.withReceivers_token,
    Shared.withReceivers_readTokens, Shared.withReceivers_readLen, Shared.cancel_withReceivers,
    Shared.withReceivers_lanes, Shared.withReceivers_notifier, Shared.withReceivers_dropManager, *]
  all_goals first
    | exact .none
    | exact .some hm
    | exact .some (hm.modifyTask _ (fun _ => rfl) (fun _ => rfl))
    | exact .some (Shared.Missing.dropped ‹_› hm)

omit [Semaphore σ] in
theorem DropCall.follows_step {c : DropCall} (hm : sh.Missing rcv) :
    (c.step sh).Follows (c.step (sh.withReceivers rcv)) := by
  unfold DropCall.step
  split
  · exact .none
  · rw [Shared.withReceivers_dropManager]
    exact .some (hm.dropManager _ _)

omit [Semaphore σ] in
theorem LabelCancelCall.follows_step {c : LabelCancelCall} (hm : sh.Missing rcv) :
    (c.step cfg sh).Follows (c.step cfg (sh.withReceivers rcv)) := by
  fun_cases LabelCancelCall.step cfg sh c
  all_goals simp only [LabelCancelCall.step, Shared.withReceivers_readTokens,
    Shared.cancel_withReceivers, *]
  all_goals first
    | exact .none
    | exact .some hm
    | exact .some (hm.modifyTask _ (fun _ => rfl) (fun _ => rfl))

omit [Semaphore σ] in
theorem AddHandlerCall.follows_step {c : AddHandlerCall} (hm : sh.Missing rcv) :
    (c.step pid sh).Follows (c.step pid (sh.withReceivers rcv)) := by
  cases hpc : c.pc with
  | init =>
    simp only [AddHandlerCall.step, hpc]
    exact .some hm
  | push =>
    simp only [AddHandlerCall.step, hpc]
    by_cases hreading : sh.notifier.reading = true
    · rw [if_pos hreading]
      exact .none
    · have hreading' : ¬(sh.withReceivers rcv).notifier.reading = true := hreading
      rw [if_neg hreading, if_neg hreading']
      exact .some hm
  | returned =>
    simp only [AddHandlerCall.step, hpc]
    exact .none

omit [Semaphore σ] in
theorem NotifierLoop.follows_step {n : NotifierLoop} (hm : sh.Missing rcv) :
    (n.step sh).Follows (n.step (sh.withReceivers rcv)) := by
  cases hpc : n.pc with
  | recv =>
    cases hmsg : sh.notifier.sent[sh.notifier.taken]? with
    | some msg =>
      have hmsg' : (sh.withReceivers rcv).notifier.sent[(sh.withReceivers rcv).notifier.taken]? =
          some msg := hmsg
      simp only [NotifierLoop.step, hpc, hmsg, hmsg']
      exact .some hm
    | none =>
      have hmsg' : (sh.withReceivers rcv).notifier.sent[(sh.withReceivers rcv).notifier.taken]? =
          none := hmsg
      simp only [NotifierLoop.step, hpc, hmsg, hmsg']
      by_cases hclosed : sh.notifier.senders = 0
      · have hclosed' : (sh.withReceivers rcv).notifier.senders = 0 := hclosed
        rw [if_pos hclosed, if_pos hclosed']
        exact .some hm
      · have hclosed' : (sh.withReceivers rcv).notifier.senders ≠ 0 := hclosed
        rw [if_neg hclosed, if_neg hclosed']
        exact .some hm
  | token =>
    simp only [NotifierLoop.step, hpc]
    exact .some hm
  | lock msg =>
    have hinfo : msg.publicInfo ((sh.withReceivers rcv).tasks msg.core).core =
        msg.publicInfo (sh.tasks msg.core).core := rfl
    simp only [NotifierLoop.step, hpc, hinfo]
    by_cases hnone : sh.notifier.handlers = []
    · have hnone' : (sh.withReceivers rcv).notifier.handlers = [] := hnone
      rw [if_pos hnone, if_pos hnone']
      exact .some hm
    · have hnone' : (sh.withReceivers rcv).notifier.handlers ≠ [] := hnone
      rw [if_neg hnone, if_neg hnone']
      exact .some hm
  | deliver info handlers =>
    cases handlers with
    | nil =>
      simp only [NotifierLoop.step, hpc]
      exact .some hm
    | cons h rest =>
      simp only [NotifierLoop.step, hpc]
      exact .some hm
  | ended | unwound =>
    simp only [NotifierLoop.step, hpc]
    exact .none

omit [Semaphore σ] in
theorem NotifierLoop.follows_panicked {n : NotifierLoop} {dropPanics : Bool}
    (hm : sh.Missing rcv) :
    (n.panicked sh dropPanics).Follows (n.panicked (sh.withReceivers rcv) dropPanics) := by
  unfold NotifierLoop.panicked
  split
  · cases dropPanics with
    | false => exact .some hm
    | true => exact .some hm
  · exact .none

theorem submitStep_follows {c : SubmitCall R} (hm : sh.Missing rcv) :
    (submitStep cfg pid sh c).Follows (submitStep cfg pid (sh.withReceivers rcv) c) := by
  unfold submitStep
  split
  · exact FuturePoolManager.follows_submit hm
  · exact FuturePoolManagerRlxd.follows_submitInner hm

theorem loopStep_follows {d : DispatcherLoop} (hm : sh.Missing rcv) :
    (loopStep cfg pid sh d).Follows (loopStep cfg pid (sh.withReceivers rcv) d) := by
  unfold loopStep
  split
  · exact FuturePoolManager.follows_runWorkerLoop hm
  · exact FuturePoolManagerRlxd.follows_runWorkerLoop hm

theorem wrapperStep_follows {w : Wrapper R} (hm : sh.Missing rcv) :
    (wrapperStep cfg sh w).Follows (wrapperStep cfg (sh.withReceivers rcv) w) := by
  unfold wrapperStep
  split
  · exact FuturePoolManager.follows_wrapper hm
  · exact FuturePoolManagerRlxd.follows_wrapper hm

theorem SubmitCall.follows_abandonAt {c : SubmitCall R} (hm : sh.Missing rcv) :
    (c.abandonAt pid sh).Follows (c.abandonAt pid (sh.withReceivers rcv)) := by
  unfold SubmitCall.abandonAt
  split
  · exact SubmitCall.follows_abandon hm _
  · exact SubmitCall.follows_abandon hm _
  · exact .none

omit [Semaphore σ] in
theorem ShutdownCall.follows_timeout {c : ShutdownCall} (hm : sh.Missing rcv) :
    (c.timeout sh).Follows (c.timeout (sh.withReceivers rcv)) := by
  unfold ShutdownCall.timeout
  split
  · exact .some hm
  · exact .some hm
  · exact .some hm
  · exact .none

omit [Semaphore σ] in
theorem ShutdownCall.follows_abandon {c : ShutdownCall} (hm : sh.Missing rcv) :
    (c.abandon sh).Follows (c.abandon (sh.withReceivers rcv)) := by
  unfold ShutdownCall.abandon
  split
  · exact .some hm
  · exact .some hm
  · exact .some hm
  · exact .none

/-- Every process does next to other receivers what it does. -/
theorem Proc.follows_run {b : Signal} {p : Proc R} (hm : sh.Missing rcv) :
    (Proc.run cfg b pid sh p).Follows (Proc.run cfg b pid (sh.withReceivers rcv) p) := by
  cases b with
  | step =>
    cases p with
    | submit c => exact (submitStep_follows hm).toProc
    | loop d => exact (loopStep_follows hm).toProc
    | wrapper w => exact (wrapperStep_follows hm).toProc
    | notifier n => exact (NotifierLoop.follows_step hm).toProc
    | shutdown c => exact (ShutdownCall.follows_step hm).toProc
    | drop c => exact (DropCall.follows_step hm).toProc
    | labelCancel c => exact (LabelCancelCall.follows_step hm).toProc
    | addHandler c => exact (AddHandlerCall.follows_step hm).toProc
  | timeout =>
    cases p with
    | shutdown c => exact (ShutdownCall.follows_timeout hm).toProc
    | _ => exact .none
  | abandon =>
    cases p with
    | shutdown c => exact (ShutdownCall.follows_abandon hm).toProc
    | submit c => exact (SubmitCall.follows_abandonAt hm).toProc
    | _ => exact .none
  | panic dropPanics =>
    cases p with
    | notifier n => exact (NotifierLoop.follows_panicked hm).toProc
    | _ => exact .none

/-! ## Whole runs -/

/-- The event drops or detaches the handle of a task. -/
def PoolEvent.detaches : PoolEvent R → Bool
  | .call (.dropHandle _) => true
  | _ => false

theorem PoolEvent.detaches_eq_true {e : PoolEvent R} (he : e.detaches = true) :
    ∃ t, e = .call (.dropHandle t) := by
  revert he
  fun_cases PoolEvent.detaches e with
  | case1 t => exact fun _ => ⟨t, rfl⟩
  | case2 => rintro ⟨⟩

/-- A handle is dropped only if the result of its task does no harm when nobody
takes it. -/
def detachable (s : Pool σ R) : PoolEvent R → Bool
  | .call (.dropHandle t) => !(s.shared.tasks t).future.resultDropPanics
  | _ => true

omit [Semaphore σ] in
theorem Shared.hasHandle_withReceivers (hm : sh.Missing rcv) (h : sh.hasHandle t = true) :
    (sh.withReceivers rcv).hasHandle t = true := by
  simp only [Shared.hasHandle, Bool.and_eq_true] at h ⊢
  refine ⟨h.1, ?_⟩
  rcases hm t with hsame | ⟨hgone, -⟩
  · show rcv t = true
    rw [← hsame]
    exact h.2
  · rw [hgone] at h
    cases h.2

omit [Semaphore σ] in
/-- Every call but the drop of a handle begins as it does. -/
theorem Call.follows_enter {c : Call R} (hm : sh.Missing rcv)
    (hc : PoolEvent.detaches (.call c) = false) (h : c.enter sh = some (sh', sp)) :
    ∃ rcv', sh'.Missing rcv' ∧
      c.enter (sh.withReceivers rcv) = some (sh'.withReceivers rcv', sp) := by
  revert h
  fun_cases Call.enter sh c
  all_goals rintro ⟨⟩
  -- the drop of a handle
  case case7 => cases hc
  -- a cancellation needs the handle, which is still there next to more receivers
  case case5 t hhandle =>
    refine ⟨rcv, hm.modifyTask _ (fun _ => rfl) fun _ => rfl, ?_⟩
    simp only [Call.enter, Shared.hasHandle_withReceivers hm hhandle, if_true,
      Shared.cancel_withReceivers]
  all_goals
    refine ⟨rcv, hm, ?_⟩
    next husable => exact if_pos husable

/-- The same state but for who holds a result receiver, with the harmless
receivers missing here. -/
def Pool.ButReceivers (s s₂ : Pool σ R) : Prop :=
  ∃ rcv, s.shared.Missing rcv ∧ s₂ = ⟨s.shared.withReceivers rcv, s.procs⟩

omit [Semaphore σ] in
theorem Pool.ButReceivers.refl (s : Pool σ R) : s.ButReceivers s :=
  ⟨fun t => (s.shared.tasks t).receiver, fun _ => .inl rfl, rfl⟩

/-- A step that detaches nothing is also one of the other state. -/
theorem Pool.ButReceivers.step {s s' s₂ : Pool σ R} {e : PoolEvent R} (hs : s.ButReceivers s₂)
    (he : e.detaches = false) (hstep : (pool σ R cfg).step s e = some s') :
    ∃ s₂', (pool σ R cfg).step s₂ e = some s₂' ∧ s'.ButReceivers s₂' := by
  obtain ⟨rcv, hm, rfl⟩ := hs
  cases e with
  | run b pid =>
    obtain ⟨p, sh', p', sp, hp, hrun, rfl⟩ := Program.step_run hstep
    obtain ⟨rcv', hm', hrun'⟩ := Proc.follows_run hm sh' p' sp hrun
    exact ⟨_, Program.step_of_run hp hrun', rcv', hm', rfl⟩
  | call c =>
    obtain ⟨sh', sp, hcall, rfl⟩ := Program.step_call hstep
    obtain ⟨rcv', hm', hcall'⟩ := Call.follows_enter hm he hcall
    refine ⟨_, ?_, rcv', hm', rfl⟩
    show (c.enter (s.shared.withReceivers rcv)).map _ = _
    rw [hcall']
    rfl

/-- The drop of a handle only lets a receiver go. -/
theorem Pool.ButReceivers.detach {s s' s₂ : Pool σ R} {e : PoolEvent R} (hs : s.ButReceivers s₂)
    (he : e.detaches = true) (hok : detachable s e = true)
    (hstep : (pool σ R cfg).step s e = some s') : s'.ButReceivers s₂ := by
  obtain ⟨rcv, hm, rfl⟩ := hs
  obtain ⟨t, rfl⟩ := PoolEvent.detaches_eq_true he
  obtain ⟨sh', sp, hcall, rfl⟩ := Program.step_call hstep
  have hharmless : (s.shared.tasks t).future.resultDropPanics = false := by
    simpa [detachable] using hok
  obtain ⟨-, heq⟩ := Option.ite_none_right_eq_some.mp hcall
  obtain ⟨rfl, rfl⟩ := Prod.mk.inj (Option.some.inj heq)
  refine ⟨rcv, ?_, ?_⟩
  · intro u
    by_cases hu : u = t
    · subst hu
      exact .inr ⟨by simp [Task.dropReceiver], by simpa [Task.dropReceiver] using hharmless⟩
    · simpa [hu] using hm u
  · have htasks : (s.shared.modifyTask t Task.dropReceiver).withReceivers rcv =
        s.shared.withReceivers rcv := by
      have hreceivers : (fun u => (if u = t then (s.shared.tasks u).dropReceiver
            else s.shared.tasks u).withReceiver (rcv u)) =
          fun u => (s.shared.tasks u).withReceiver (rcv u) := by
        funext u
        split
        · rfl
        · rfl
      simp only [Shared.modifyTask, Shared.withReceivers, hreceivers]
    simp [Threads.spawn, htasks]

/-- Detaching is unnoticed: in every run in which handles are dropped only where
the result does no harm, the rest of the schedule runs just as well when the
handles stay, and ends in the same processes and the same shared state, up to who
holds a result receiver. -/
theorem detaching_is_unnoticed (σ R : Type) [Semaphore σ] (cfg : PoolConfig)
    (as : List (PoolEvent R)) (s s' : Pool σ R)
    (h : (poolMachine σ R cfg).exec detachable as s = some s') :
    ∃ rcv, s'.shared.Missing rcv ∧
      (poolMachine σ R cfg).exec (fun _ _ => true) (as.filter fun e => !e.detaches) s =
        some ⟨s'.shared.withReceivers rcv, s'.procs⟩ := by
  have hsame : ∃ s₂, (poolMachine σ R cfg).exec (fun _ _ => true)
      (as.filter fun e => !e.detaches) s = some s₂ ∧ s'.ButReceivers s₂ := by
    refine Machine.exec_filter ?_ ?_ (.refl s) h
    · intro s a s' t hs hkeep hstep
      exact hs.step (by simpa using hkeep) hstep
    · intro s a s' t hs hkeep hok hstep
      exact hs.detach (by simpa using hkeep) hok hstep
  obtain ⟨s₂, hexec, rcv, hm, rfl⟩ := hsame
  exact ⟨rcv, hm, hexec⟩

/-- A task is submitted, its handle is dropped while it waits, and it runs. -/
def detachedRun : List (PoolEvent Nat) :=
  .call (.submit 0 ∅ (.ready 7)) :: stepping [1, 1, 1, 1, 1, 1, 1, 1] ++
    .call (.dropHandle 0) :: stepping [0, 0, 0, 0, 0, 0, 0, 0, 0] ++ stepping [2, 2, 2]

def detached : Pool FairSemaphore Nat :=
  (poolMachine FairSemaphore Nat (.manager 1 1 "pool")).after detachable detachedRun
    (Pool.new _ _ (.manager 1 1 "pool"))

theorem detaching_is_unnoticed_ran :
    (detached.shared.tasks 0).receiver = false ∧
      ∃ rcv, ((detached.shared.withReceivers rcv).tasks 0).polls = 1 ∧
        (poolMachine FairSemaphore Nat (.manager 1 1 "pool")).exec (fun _ _ => true)
          (detachedRun.filter fun e => !e.detaches) (Pool.new _ _ (.manager 1 1 "pool")) =
          some ⟨detached.shared.withReceivers rcv, detached.procs⟩ := by
  obtain ⟨rcv, -, hexec⟩ := detaching_is_unnoticed FairSemaphore Nat (.manager 1 1 "pool")
    detachedRun (Pool.new _ _ (.manager 1 1 "pool")) detached rfl
  exact ⟨by rfl, rcv, by rfl, hexec⟩

end FuturesOrchestra
