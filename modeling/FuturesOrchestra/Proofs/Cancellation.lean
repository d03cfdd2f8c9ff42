import FuturesOrchestra.Proofs.DispatchOrder

/-!
# Cancellation decides the outcome

A cancellation that comes before the outcome of a task is decided takes the
outcome over (`Condemned`), and one that comes before the task is taken out of its
queue keeps it from ever running (`Spared`). In the relaxed pool a dispatcher
looks at the flag before it waits for a permit and not after, so that a
cancellation which lands in that wait is found only by the wrapper.
-/

namespace FuturesOrchestra

open Interleaving

variable {σ R : Type} {cfg : PoolConfig} {pid t : Nat} {sh sh' : Shared σ R}
  {sp : Option (Proc R)}

/-! ## Condemned tasks -/

/-- The outcome of task `t` is decided by the process: a loop has found it
cancelled, or its wrapper has looked at the flag. -/
def Proc.decided (t : Nat) : Proc R → Bool
  | .loop d =>
    match d.pc with
    | .cancelSend _ u => u == t
    | _ => false
  | .wrapper w =>
    match w.pc with
    | .poll | .selectCancelled | .resolved _ => false
    | _ => w.task == t
  | _ => false

/-- Task `t` exists and its outcome is open. -/
structure Undecided (s : Pool σ R) (t : Nat) : Prop where
  created : t < s.shared.nextTaskId
  live : (s.shared.tasks t).sender = .live
  procs : ∀ p ∈ s.procs, p.decided t = false

/-- Nothing but `TaskCancelled` can be sent for the task any more. -/
structure Condemned (s : Pool σ R) (t : Nat) : Prop where
  created : t < s.shared.nextTaskId
  flag : s.shared.isCancelled t = true
  used : ∀ r, (s.shared.tasks t).sender = .used r → r = .error .taskCancelled
  outcome : ∀ pid w r, s.At pid (.wrapper w) → w.task = t → w.pc = .outcome r →
    r = .error .taskCancelled

theorem Undecided.condemned {s : Pool σ R} (h : Undecided s t)
    (hflag : s.shared.isCancelled t = true) : Condemned s t := by
  refine ⟨h.created, hflag, fun r hused => ?_, fun pid w r hw htask hpc => ?_⟩
  · rw [h.live] at hused
    cases hused
  · have hopen := h.procs _ (List.mem_of_getElem? hw)
    simp [Proc.decided, hpc, htask] at hopen

variable [Semaphore σ]

/-- A wrapper that finds the flag set settles the task as cancelled. -/
theorem WrapperStep.outcome_cancelled {w w' : Wrapper R} {r : Except PoolError R}
    (h : WrapperStep cfg sh w sh' w') (hflag : sh.isCancelled w.task = true)
    (hpc : w'.pc = .outcome r) : r = .error .taskCancelled := by
  cases h <;> simp_all

section Runs

variable {s s' : Pool σ R} {ok ok' : Pool σ R → PoolEvent R → Prop} {p p' : Proc R}

theorem Condemned.update (hs : Condemned s t) (hp : s.At pid p)
    (hstep : Proc.Step cfg pid s.shared p sh p' sp) : Condemned (s.update pid sh p' sp) t := by
  have hevolves := Shared.Evolves.proc hstep
  refine ⟨hs.created.trans_le hevolves.nextTaskId,
    (hevolves.tasks t hs.created).cancelled hs.flag, fun r hused => ?_,
    fun qid w r hw htask hpc => ?_⟩
  · rw [Threads.update_shared] at hused
    cases hstep.settles hs.created with
    | kept hkept => exact hs.used r (hkept ▸ hused)
    | sent hsends _ hsent =>
      obtain rfl := ResultSender.used.inj (hsent.symm.trans hused)
      cases hsends with
      | wrapper htask hpc => exact hs.outcome pid _ _ hp htask hpc
      | cancelled _ hr => exact hr
    | dropped _ _ hdropped =>
      rw [hdropped] at hused
      cases hused
  · rcases Threads.update_getElem? hp hw with ⟨rfl, rfl⟩ | ⟨_, hold⟩ | ⟨_, rfl⟩
    · cases hstep with
      | wrapper hstep =>
        exact hstep.outcome_cancelled (hstep.task_kept.symm.trans htask ▸ hs.flag) hpc
      | bystander _ hby' => exact hby'.elim
    · exact hs.outcome qid w r hold htask hpc
    · rw [hstep.spawned.2] at hpc
      cases hpc

theorem Condemned.steps (hreach : (poolMachine σ R cfg).Reachable Machine.anyStep s)
    (h : (poolMachine σ R cfg).Steps ok s s') (hs : Condemned s t) : Condemned s' t := by
  refine Pool.induct (I := fun s => Condemned s t) hreach
    (fun _ hs _ hp hstep => hs.update hp hstep) ?_ h hs
  intro s c sh sp _ hs _ hquiet hfresh
  have htouched := hquiet.tasks t
  refine ⟨hquiet.nextTaskId ▸ hs.created, ?_, fun r hused => ?_, fun qid w r hw htask hpc => ?_⟩
  · exact (Task.Evolves.touched htouched).cancelled hs.flag
  · exact hs.used r (htouched.sender ▸ hused)
  · rcases Threads.spawn_getElem? hw with hold | ⟨_, hnew⟩
    · exact hs.outcome qid w r hold htask hpc
    · cases hfresh _ hnew with
      | bystander hby => exact hby.elim

/-! ## Spared tasks -/

end Runs

/-- The loop holds a task that it will not start once the cancel flag is set. -/
def LoopPc.sparing : LoopPc → Bool
  | .guard _ | .precheck .. | .cancelSend .. | .exit .. => true
  | _ => false

/-- The task is cancelled, and nobody holds it but a loop that will not start it. -/
structure Spared (s : Pool σ R) (t : Nat) : Prop where
  created : t < s.shared.nextTaskId
  flag : s.shared.isCancelled t = true
  carriers : ∀ pid p, s.At pid p → p.carries = some t → ∃ d, p = .loop d ∧ d.pc.sparing = true

theorem LoopStep.spares {d d' : DispatcherLoop} (h : LoopStep cfg pid sh d sh' d' sp)
    (hflag : sh.isCancelled t = true) (hd : d.pc.task = some t → d.pc.sparing = true)
    (hd' : d'.pc.task = some t) : d'.pc.sparing = true := by
  cases h <;> simp_all [LoopPc.task, LoopPc.sparing]

/-- A `submit` call holds only a task it held before or has just created. -/
theorem SubmitStep.task_kept {kind : PoolKind} {c c' : SubmitCall R}
    (h : SubmitStep kind pid sh c sh' c' sp) (ht : t < sh.nextTaskId)
    (hc' : c'.pc.task = some t) : c.pc.task = some t := by
  cases h with
  | create | createScan => simp [SubmitPc.task] at hc'; omega
  | _ => simp_all [SubmitPc.task]

section Runs

variable {s s' : Pool σ R} {ok ok' : Pool σ R → PoolEvent R → Prop} {p p' : Proc R}

theorem Spared.update (hs : Spared s t) (hp : s.At pid p)
    (hstep : Proc.Step cfg pid s.shared p sh p' sp) : Spared (s.update pid sh p' sp) t := by
  have hevolves := Shared.Evolves.proc hstep
  refine ⟨hs.created.trans_le hevolves.nextTaskId,
    (hevolves.tasks t hs.created).cancelled hs.flag, fun qid q hq hc => ?_⟩
  rcases Threads.update_getElem? hp hq with ⟨rfl, rfl⟩ | ⟨_, hold⟩ | ⟨_, rfl⟩
  · cases hstep with
    | submit hstep =>
      obtain ⟨d, hd, -⟩ := hs.carriers _ _ hp (hstep.task_kept hs.created hc)
      cases hd
    | @loop d _ d' _ hstep =>
      refine ⟨d', rfl, hstep.spares hs.flag (fun hd => ?_) hc⟩
      obtain ⟨d₁, heq, hsparing⟩ := hs.carriers _ _ hp hd
      cases heq
      exact hsparing
    | wrapper hstep =>
      obtain ⟨d, hd, -⟩ := hs.carriers _ _ hp ((congrArg some hstep.task_kept).symm.trans hc)
      cases hd
    | bystander _ hby' =>
      cases q with
      | submit | loop | wrapper => exact hby'.elim
      | _ => cases hc
  · exact hs.carriers qid q hold hc
  · obtain ⟨w, rfl, rfl⟩ := hstep.started_carries hc
    obtain ⟨d, rfl, hsparing⟩ := hs.carriers _ _ hp (Proc.carries_of_owns hstep.spawned.1)
    cases hstep with
    | loop hstep =>
      cases hstep with
      | spawn hpc => simp [LoopPc.sparing, hpc] at hsparing
    | bystander hby => exact hby.elim

theorem Spared.steps (hreach : (poolMachine σ R cfg).Reachable Machine.anyStep s)
    (h : (poolMachine σ R cfg).Steps ok s s') (hs : Spared s t) : Spared s' t := by
  refine Pool.induct (I := fun s => Spared s t) hreach
    (fun _ hs _ hp hstep => hs.update hp hstep) ?_ h hs
  intro s c sh sp _ hs _ hquiet hfresh
  refine ⟨hquiet.nextTaskId ▸ hs.created, ?_, fun qid q hq hc => ?_⟩
  · exact (Task.Evolves.touched (hquiet.tasks t)).cancelled hs.flag
  · rcases Threads.spawn_getElem? hq with hold | ⟨_, hnew⟩
    · exact hs.carriers qid q hold hc
    · cases hfresh q hnew with
      | bystander hby =>
        cases q with
        | submit | loop | wrapper => exact hby.elim
        | _ => cases hc
      | submit => cases hc

/-- Task `t` is found in the registry. -/
def Shared.inRegistry (cfg : PoolConfig) (sh : Shared σ R) (t : Nat) : Prop :=
  ∃ i, sh.holds cfg t i

/-- A spared task was never started: it has no wrapper, its future was never
polled, and it is not in the registry. -/
theorem Spared.never_started (hreach : (poolMachine σ R cfg).Reachable ok s)
    (hs : Spared s t) :
    Unstarted s t ∧ (s.shared.tasks t).polls = 0 ∧ ¬ s.shared.inRegistry cfg t := by
  have hun : Unstarted s t := by
    rintro pid w hw rfl
    obtain ⟨d, hd, -⟩ := hs.carriers pid _ hw rfl
    cases hd
  refine ⟨hun, (verdicts hreach).unpolled t hs.created hun, ?_⟩
  rintro ⟨i, hholds⟩
  obtain ⟨pid, p, hp, hentered⟩ := (registry hreach).entered t i hholds
  obtain ⟨d, rfl, hsparing⟩ := hs.carriers pid p hp (Proc.carries_of_entered hentered)
  rcases hentered with ⟨j, hreg⟩ | ⟨w, hw, -⟩
  · have hd : d.pc.registered = some (t, j) := hreg
    cases hpc : d.pc <;> simp_all [LoopPc.sparing, LoopPc.registered]
  · cases hw

theorem spared_of_queued (hreach : (poolMachine σ R cfg).Reachable ok s)
    (hqueued : 0 < s.shared.queued t) (hflag : s.shared.isCancelled t = true) : Spared s t :=
  ⟨(live_of_queued hreach hqueued).1, hflag, fun _ _ hp hc =>
    absurd hc (not_carried_of_queued hreach hqueued hp)⟩

/-! ## Tasks nobody cancels -/

/-- In a run without a request for it a task is not cancelled. -/
theorem not_cancelled_of_unrequested
    (h : (poolMachine σ R cfg).Reachable (fun s a => requestsCancel t s a = false) s) :
    s.shared.isCancelled t = false := by
  refine h.invariant (I := fun s => s.shared.isCancelled t = false) ?_ rfl
  intro s a s' hs hok hstep
  rw [← Bool.not_eq_true]
  intro hflag
  rcases requested_of_cancelled hstep hflag with hold | hrequest
  · simp [hs] at hold
  · simp [hok] at hrequest

/-- What a settled task that nobody cancelled was told: its own value if and only
if its future returned one, and that it panicked if its poll did, which is lost
only with a payload whose destructor panics. -/
structure Truthful (task : Task R) : Prop where
  notCancelled : task.sender ≠ .used (.error .taskCancelled)
  value : ∀ v, task.sender = .used (.ok v) ↔ task.returned = some v
  panicked : task.sender = .used (.error .taskPanicked) → task.hasPanicked = true
  payload : task.hasPanicked = true → task.sender = .used (.error .taskPanicked) ∨
    (task.sender = .dropped ∧ task.future.payloadDropPanics = true)

omit [Semaphore σ] in
theorem Task.returned_of_hasPanicked {task : Task R} (h : task.hasPanicked = true) :
    task.returned = none := by
  unfold hasPanicked at h
  unfold returned
  split at h
  · cases h
  · split at h
    · next hpoll => simp [*]
    · cases h

omit [Semaphore σ] in
theorem Task.of_polls_eq_zero {task : Task R} (h : task.polls = 0) :
    task.returned = none ∧ task.hasPanicked = false := by
  simp [returned, hasPanicked, h]

omit [Semaphore σ] in
/-- How a task that nobody cancelled can be settled. -/
theorem Verdicts.settled_cases (hs : Verdicts s) (ht : t < s.shared.nextTaskId)
    (hsettled : (s.shared.tasks t).sender.settled = true)
    (hflag : (s.shared.tasks t).isCancelled = false) :
    (∃ v, (s.shared.tasks t).sender = .used (.ok v) ∧ (s.shared.tasks t).returned = some v) ∨
    ((s.shared.tasks t).sender = .used (.error .taskPanicked) ∧
      (s.shared.tasks t).hasPanicked = true) ∨
    ((s.shared.tasks t).sender = .dropped ∧ Unstarted s t ∧ (s.shared.tasks t).polls = 0) ∨
    ((s.shared.tasks t).sender = .dropped ∧ (s.shared.tasks t).hasPanicked = true ∧
      (s.shared.tasks t).future.payloadDropPanics = true) := by
  cases hsender : (s.shared.tasks t).sender with
  | live => simp [hsender, ResultSender.settled] at hsettled
  | used r =>
    have hfits := hs.used t r ht hsender
    cases r with
    | ok v => exact .inl ⟨v, rfl, hfits⟩
    | error e =>
      cases e with
      | taskPanicked => exact .inr (.inl ⟨rfl, hfits⟩)
      | taskCancelled => simp [Task.Fits, hflag] at hfits
      | _ => exact hfits.elim
  | dropped =>
    rcases hs.dropped t ht hsender with hun | ⟨hcancelled, -⟩ | ⟨hpayload, hpanicked⟩
    · exact .inr (.inr (.inl ⟨rfl, hun, hs.unpolled t ht hun⟩))
    · rw [hflag] at hcancelled
      cases hcancelled
    · exact .inr (.inr (.inr ⟨rfl, hpanicked, hpayload⟩))

omit [Semaphore σ] in
theorem Verdicts.truthful (hs : Verdicts s) (ht : t < s.shared.nextTaskId)
    (hsettled : (s.shared.tasks t).sender.settled = true)
    (hflag : (s.shared.tasks t).isCancelled = false) : Truthful (s.shared.tasks t) := by
  rcases hs.settled_cases ht hsettled hflag with ⟨v, hused, hreturned⟩ | ⟨hused, hpanicked⟩ |
    ⟨hdropped, -, hpolls⟩ | ⟨hdropped, hpanicked, hpayload⟩
  · refine ⟨by simp [hused], fun w => by simp [hused, hreturned], by simp [hused], fun h => ?_⟩
    rw [Task.returned_of_hasPanicked h] at hreturned
    cases hreturned
  · have hreturned := Task.returned_of_hasPanicked hpanicked
    exact ⟨by simp [hused], fun w => by simp [hused, hreturned], fun _ => hpanicked,
      fun _ => .inl hused⟩
  · obtain ⟨hreturned, hpanicked⟩ := Task.of_polls_eq_zero hpolls
    exact ⟨by simp [hdropped], fun w => by simp [hdropped, hreturned], by simp [hdropped],
      by simp [hpanicked]⟩
  · have hreturned := Task.returned_of_hasPanicked hpanicked
    exact ⟨by simp [hdropped], fun w => by simp [hdropped, hreturned], fun _ => hpanicked,
      fun _ => .inr ⟨hdropped, hpayload⟩⟩

/-- What the handle of a condemned task reads. -/
theorem Condemned.answer (hreach : (poolMachine σ R cfg).Reachable ok s) (hs : Condemned s t)
    (hreceiver : (s.shared.tasks t).receiver = true) {r : Except PoolError R}
    (hawait : (s.shared.tasks t).awaitResult = some r) :
    r = .error .taskCancelled ∨ ((∃ message, r = .error (.resultChannelError message)) ∧
      (Unstarted s t ∨ (s.shared.tasks t).Lost)) := by
  cases hsender : (s.shared.tasks t).sender with
  | live => simp [Task.awaitResult, hreceiver, hsender] at hawait
  | used r' =>
    obtain rfl : r' = r := by simpa [Task.awaitResult, hreceiver, hsender] using hawait
    exact .inl (hs.used r' hsender)
  | dropped =>
    simp only [Task.awaitResult, hreceiver, hsender, if_true, Option.some.injEq] at hawait
    exact .inr ⟨⟨_, hawait.symm⟩, (verdicts hreach).dropped t hs.created hsender⟩

end Runs

/-! ## The law -/

/-- Cancellation decides the outcome. Once the flag of a task is set while its
outcome is open, its handle is told that it was cancelled, or that the channel
closed when the task was dropped unstarted or its discarded outcome was lost to a
destructor that panicked. A task for which no cancellation is ever requested is
told the truth. A task that is cancelled in its queue is never polled and never
enters the registry. -/
theorem cancellation_decides (σ R : Type) [Semaphore σ] (cfg : PoolConfig) (t : Nat) :
    (∀ s s' : Pool σ R, (poolMachine σ R cfg).Reachable Machine.anyStep s →
      (poolMachine σ R cfg).Steps Machine.anyStep s s' → Undecided s t →
      s.shared.isCancelled t = true → (s'.shared.tasks t).receiver = true →
      ∀ r, (s'.shared.tasks t).awaitResult = some r →
        r = .error .taskCancelled ∨ ((∃ message, r = .error (.resultChannelError message)) ∧
          (Unstarted s' t ∨ (s'.shared.tasks t).Lost))) ∧
    (∀ s : Pool σ R,
      (poolMachine σ R cfg).Reachable (fun s a => requestsCancel t s a = false) s →
      t < s.shared.nextTaskId → (s.shared.tasks t).sender.settled = true →
      Truthful (s.shared.tasks t)) ∧
    ∀ s s' : Pool σ R, (poolMachine σ R cfg).Reachable Machine.anyStep s →
      (poolMachine σ R cfg).Steps Machine.anyStep s s' → 0 < s.shared.queued t →
      s.shared.isCancelled t = true →
      (s'.shared.tasks t).polls = 0 ∧ ¬ s'.shared.inRegistry cfg t := by
  refine ⟨fun s s' h hsteps hopen hflag hreceiver r hawait => ?_, fun s h ht hsettled => ?_,
    fun s s' h hsteps hqueued hflag => ?_⟩
  · exact ((hopen.condemned hflag).steps h hsteps).answer (h.trans hsteps) hreceiver hawait
  · exact (verdicts h).truthful ht hsettled (not_cancelled_of_unrequested h)
  · have hspared := (spared_of_queued h hqueued hflag).steps h hsteps
    exact (hspared.never_started (h.trans hsteps)).2

/-- A strict pool in which the future of task 0 is pending and task 1 is queued. -/
def busy : Pool FairSemaphore Nat :=
  let M := poolMachine FairSemaphore Nat (.manager 1 1 "pool")
  M.after (fun s a => !requestsCancel 0 s a)
    (.call (.submit 0 ∅ ⟨fun n => if n = 0 then .pending else .ready 7, false, false, false⟩) ::
      stepping [1, 1, 1, 1, 1, 1, 1, 1] ++ stepping [0, 0, 0, 0, 0, 0, 0, 0, 0] ++
      stepping [2] ++
      .call (.submit 0 ∅ (.ready 8)) :: stepping [3, 3, 3, 3, 3, 3, 3, 3]) M.init

/-- Task 0 goes on to its end. -/
def busyServed : Pool FairSemaphore Nat :=
  (poolMachine FairSemaphore Nat (.manager 1 1 "pool")).after (fun s a => !requestsCancel 0 s a)
    (stepping [2, 2, 2, 2, 2, 2, 2]) busy

/-- Both tasks are cancelled. -/
def busyCancelled : Pool FairSemaphore Nat :=
  (poolMachine FairSemaphore Nat (.manager 1 1 "pool")).after (fun _ _ => true)
    [.call (.cancel 0), .call (.cancel 1)] busy

/-- Both cancelled tasks are settled. -/
def busyAnswered : Pool FairSemaphore Nat :=
  (poolMachine FairSemaphore Nat (.manager 1 1 "pool")).after (fun _ _ => true)
    (stepping [2, 2, 2, 2, 2] ++ stepping [0, 0, 0, 0, 0, 0, 0, 0, 0]) busyCancelled

theorem cancellation_decides_busy :
    (busyAnswered.shared.tasks 0).awaitResult = some (.error .taskCancelled) ∧
      (busyServed.shared.tasks 0).sender = .used (.ok 7) ∧
      (busyAnswered.shared.tasks 1).polls = 0 ∧
      (busyAnswered.shared.tasks 1).awaitResult = some (.error .taskCancelled) := by
  have hbusy : (poolMachine FairSemaphore Nat (.manager 1 1 "pool")).Reachable
      (fun s a => (!requestsCancel 0 s a) = true) busy := Machine.steps_after _ _ _ _
  have hserved : (poolMachine FairSemaphore Nat (.manager 1 1 "pool")).Steps
      (fun s a => (!requestsCancel 0 s a) = true) busy busyServed := Machine.steps_after _ _ _ _
  have hcancelled : (poolMachine FairSemaphore Nat (.manager 1 1 "pool")).Steps Machine.anyStep
      busy busyCancelled := (Machine.steps_after _ _ _ _).any
  have hanswered : (poolMachine FairSemaphore Nat (.manager 1 1 "pool")).Steps Machine.anyStep
      busyCancelled busyAnswered := (Machine.steps_after _ _ _ _).any
  have hreach := hbusy.any.trans hcancelled
  have htask := cancellation_decides FairSemaphore Nat (.manager 1 1 "pool")
  refine ⟨?_, ?_, ((htask 1).2.2 busyCancelled busyAnswered hreach hanswered (by decide)
    (by decide)).1, by decide⟩
  · have hanswer : (busyAnswered.shared.tasks 0).awaitResult = some (.error .taskCancelled) := by
      decide
    rcases (htask 0).1 busyCancelled busyAnswered hreach hanswered
        ⟨by decide, rfl, by decide⟩ (by decide) (by decide) _ hanswer with h | ⟨⟨m, h⟩, -⟩
    · rw [hanswer, h]
    · cases h
  · have hok : ∀ (s : Pool FairSemaphore Nat) a, (!requestsCancel 0 s a) = true →
        requestsCancel 0 s a = false := fun s a h => by simpa using h
    have htruthful := (htask 0).2.1 busyServed ((hbusy.trans hserved).mono hok) (by decide)
      (by decide)
    exact (htruthful.value 7).mpr (by decide)

/-- A task whose value has a destructor that panics is cancelled after its future
has returned, before its wrapper looks at the flag. -/
def returnedCancelled : Pool FairSemaphore Nat :=
  let M := poolMachine FairSemaphore Nat (.manager 1 1 "pool")
  M.after (fun _ _ => true)
    (.call (.submit 0 ∅ { TaskFuture.ready 7 with resultDropPanics := true }) ::
      stepping [1, 1, 1, 1, 1, 1, 1, 1] ++ stepping [0, 0, 0, 0, 0, 0, 0, 0, 0] ++
      stepping [2] ++ [.call (.cancel 0)]) M.init

/-- Its wrapper discards the value. -/
def returnedLost : Pool FairSemaphore Nat :=
  (poolMachine FairSemaphore Nat (.manager 1 1 "pool")).after (fun _ _ => true)
    (stepping [2, 2]) returnedCancelled

/-- The cancelled task was started, nobody shuts the pool down, and its handle is
told that the channel closed. -/
theorem cancelled_task_answers_channel_error :
    (poolMachine FairSemaphore Nat (.manager 1 1 "pool")).Reachable Machine.anyStep
        returnedCancelled ∧
      (poolMachine FairSemaphore Nat (.manager 1 1 "pool")).Steps Machine.anyStep
        returnedCancelled returnedLost ∧
      Undecided returnedCancelled 0 ∧ returnedCancelled.shared.isCancelled 0 = true ∧
      (returnedLost.shared.tasks 0).polls = 1 ∧ returnedLost.shared.token = false ∧
      (returnedLost.shared.tasks 0).awaitResult = some (.error (.resultChannelError
        ("Task (id: 0) result channel unexpectedly closed: " ++ Task.oneshotDisconnected))) :=
  ⟨(Machine.steps_after _ _ _ _).any, (Machine.steps_after _ _ _ _).any,
    ⟨by decide, rfl, by decide⟩, by decide, by decide, by decide, by decide⟩

/-! ## Waiting for a permit -/

/-- The task with which the loop waits for a concurrency permit. -/
def LoopPc.waiting : LoopPc → Option Nat
  | .acquire hand | .acquireToken hand => hand
  | _ => none

def Proc.waitsWith (t : Nat) : Proc R → Bool
  | .loop d => d.pc.waiting == some t
  | _ => false

/-- The event does not request the cancellation of task `t` while a dispatcher
waits for a permit with it. -/
def sparesWaiting (t : Nat) (s : Pool σ R) (a : PoolEvent R) : Bool :=
  !requestsCancel t s a || s.procs.all fun p => !p.waitsWith t

theorem LoopStep.waitsWith {d d' : DispatcherLoop} (h : LoopStep cfg pid sh d sh' d' sp)
    (hd' : (Proc.loop d' : Proc R).waitsWith t = true) :
    (Proc.loop d : Proc R).waitsWith t = true ∨ sh'.isCancelled t = false := by
  rw [h.isCancelled_kept]
  cases h <;> simp_all [Proc.waitsWith, LoopPc.waiting]

theorem Proc.Step.waitsWith {p p' q : Proc R} (h : Proc.Step cfg pid sh p sh' p' sp)
    (hq : q = p' ∨ sp = some q) (hwaits : q.waitsWith t = true) :
    p.waitsWith t = true ∨ sh'.isCancelled t = false := by
  cases q with
  | loop d' =>
    cases h with
    | loop hstep =>
      rcases hq with hq | hq
      · cases hq
        exact hstep.waitsWith hwaits
      · cases hstep <;> cases hq
    | submit hstep =>
      rcases hq with hq | hq
      · cases hq
      · cases hstep <;> cases hq
    | wrapper => rcases hq with hq | hq <;> cases hq
    | bystander _ hby' hstep =>
      rcases hq with rfl | hq
      · exact hby'.elim
      · exact (hstep.2 _ hq).elim
  | _ => cases hwaits

section Runs

variable {s s' : Pool σ R} {ok : Pool σ R → PoolEvent R → Prop}

/-- As long as no cancellation lands in the wait, the task a dispatcher waits with
is not cancelled. -/
theorem not_cancelled_of_waits
    (h : (poolMachine σ R cfg).Reachable (fun s a => sparesWaiting t s a = true) s)
    (hflag : s.shared.isCancelled t = true) : ∀ p ∈ s.procs, p.waitsWith t = false := by
  refine h.invariant (I := fun s => s.shared.isCancelled t = true →
    ∀ p ∈ s.procs, p.waitsWith t = false) ?_ ?_ hflag
  · intro s a s' hs hok hstep hflag' q hq
    rw [← Bool.not_eq_true]
    intro hwaits
    have hold : ∀ p ∈ s.procs, p.waitsWith t = false := by
      rcases requested_of_cancelled hstep hflag' with hold | hrequest
      · exact hs hold
      · simpa [sparesWaiting, hrequest] using hok
    obtain ⟨qid, hqid⟩ := List.getElem?_of_mem hq
    cases a with
    | run b pid =>
      obtain ⟨p, sh, p', sp, hp, hrun, rfl⟩ := Program.step_run hstep
      have hpstep := Proc.step_of_run hrun
      have hself (h : q = p' ∨ sp = some q) : False := by
        rcases hpstep.waitsWith h hwaits with hp' | hclear
        · simp [hold p (List.mem_of_getElem? hp)] at hp'
        · rw [Threads.update_shared, hclear] at hflag'
          cases hflag'
      rcases Threads.update_getElem? hp hqid with ⟨rfl, rfl⟩ | ⟨_, hq⟩ | ⟨_, hq⟩
      · exact hself (.inl rfl)
      · simp [hold q (List.mem_of_getElem? hq)] at hwaits
      · exact hself (.inr hq)
    | call c =>
      obtain ⟨sh, sp, hcall, rfl⟩ := Program.step_call hstep
      rcases Threads.spawn_getElem? hqid with hq | ⟨_, hnew⟩
      · simp [hold q (List.mem_of_getElem? hq)] at hwaits
      · cases (Call.enter_quiet hcall).2 q hnew with
        | bystander hby =>
          cases q with
          | loop => exact hby.elim
          | _ => cases hwaits
        | submit => cases hwaits
  · intro _ p hp
    obtain ⟨pid, hpid⟩ := List.getElem?_of_mem hp
    obtain ⟨-, rfl⟩ := Pool.init_loop hpid
    rfl

/-- A cancelled task that waits for capacity, in its lane or with its dispatcher,
is spared. -/
theorem spared_of_waiting
    (h : (poolMachine σ R cfg).Reachable (fun s a => sparesWaiting t s a = true) s)
    (hflag : s.shared.isCancelled t = true)
    (hwaiting : 0 < s.shared.queued t ∨ ∃ pid d, s.At pid (.loop d) ∧
      (d.pc = .precheck false t ∨ d.pc.waiting = some t)) : Spared s t := by
  rcases hwaiting with hqueued | ⟨pid, d, hd, hpc⟩
  · exact spared_of_queued h hqueued hflag
  · have hclear := not_cancelled_of_waits h hflag _ (List.mem_of_getElem? hd)
    rcases hpc with hpc | hpc
    · have hcarries : (Proc.loop d : Proc R).carries = some t := by
        simp [Proc.carries, LoopPc.task, hpc]
      refine ⟨lt_of_carries h hd hcarries, hflag, fun qid q hq hc => ?_⟩
      obtain rfl := carrier_unique h hd hq hcarries hc
      obtain rfl := Option.some.inj (hd.symm.trans hq)
      exact ⟨d, rfl, by simp [LoopPc.sparing, hpc]⟩
    · simp [Proc.waitsWith, hpc] at hclear

theorem Spared.settled (hreach : (poolMachine σ R cfg).Reachable ok s) (hs : Spared s t)
    (hshut : (s.shared.tasks t).sender = .dropped → s.shared.token = true) :
    (s.shared.tasks t).sender = .live ∨
      (s.shared.tasks t).sender = .used (.error .taskCancelled) ∨
      (s.shared.tasks t).sender = .dropped ∧ s.shared.token = true := by
  obtain ⟨-, hpolls, -⟩ := hs.never_started hreach
  obtain ⟨hreturned, hpanicked⟩ := Task.of_polls_eq_zero hpolls
  cases hsender : (s.shared.tasks t).sender with
  | live => exact .inl rfl
  | used r =>
    have hfits := (verdicts hreach).used t r hs.created hsender
    cases r with
    | ok v => simp [Task.Fits, hreturned] at hfits
    | error e =>
      cases e with
      | taskCancelled => exact .inr (.inl rfl)
      | taskPanicked => simp [Task.Fits, hpanicked] at hfits
      | _ => exact hfits.elim
  | dropped => exact .inr (.inr ⟨rfl, hshut hsender⟩)

/-- As long as no dispatcher is hit by a destructor that panics, a spared task is dropped
only by a shutdown: nobody but a loop can drop it. -/
theorem Spared.dropped_shut
    (hspared : ∀ {s : Pool σ R} {b pid d}, ok s (.run b pid) → s.At pid (.loop d) →
      d.struck s.shared = true → s.shared.token = true)
    (hreach : (poolMachine σ R cfg).Reachable ok s) (hs : Spared s t)
    (hlive : (s.shared.tasks t).sender = .live) (h : (poolMachine σ R cfg).Steps ok s s')
    (hdropped : (s'.shared.tasks t).sender = .dropped) : s'.shared.token = true := by
  refine (h.invariant (I := fun s => (poolMachine σ R cfg).Reachable ok s ∧ Spared s t ∧
    ((s.shared.tasks t).sender = .dropped → s.shared.token = true)) ?_
    ⟨hreach, hs, fun hdropped => ?_⟩).2.2 hdropped
  · rintro s e s' ⟨hreach, hs, hshut⟩ hgood hnext
    have hevolves : s.shared.Evolves s'.shared := .steps (.tail .refl hgood hnext)
    refine ⟨hreach.tail hgood hnext, hs.steps hreach.any (.tail .refl hgood hnext),
      fun hdropped => ?_⟩
    cases e with
    | call c =>
      obtain ⟨sh, sp, hcall, rfl⟩ := Program.step_call hnext
      exact hevolves.token (hshut (((Call.enter_quiet hcall).1.tasks t).sender ▸ hdropped))
    | run b pid =>
      obtain ⟨p, sh, p', sp, hp, hrun, rfl⟩ := Program.step_run hnext
      have hstep := Proc.step_of_run hrun
      cases hstep.settles hs.created with
      | kept hkept => exact hevolves.token (hshut (hkept ▸ hdropped))
      | sent _ _ hused =>
        rw [Threads.update_shared, hused] at hdropped
        cases hdropped
      | dropped hdrops hlive =>
        obtain ⟨d, rfl⟩ : ∃ d, p = .loop d := by
          cases hdrops with
          | held hcarries =>
            obtain ⟨d, rfl, -⟩ := hs.carriers pid p hp hcarries
            exact ⟨d, rfl⟩
          | queued => exact ⟨_, rfl⟩
          | unwind htask =>
            obtain ⟨d, heq, -⟩ := hs.carriers pid _ hp (congrArg some htask)
            cases heq
        cases hstep with
        | loop hstep => exact hevolves.token (shut_of_drop hspared hreach hp hstep hlive hdropped)
        | bystander hby => exact hby.elim
  · rw [hlive] at hdropped
    cases hdropped

theorem live_of_waiting (h : (poolMachine σ R cfg).Reachable ok s)
    (hwaiting : 0 < s.shared.queued t ∨ ∃ pid d, s.At pid (.loop d) ∧
      (d.pc = .precheck false t ∨ d.pc.waiting = some t)) :
    (s.shared.tasks t).sender = .live := by
  rcases hwaiting with hqueued | ⟨pid, d, hd, hpc⟩
  · exact (live_of_queued h hqueued).2
  · refine live_of_owns h hd ?_
    rcases hpc with hpc | hpc
    · simp [Proc.owns, LoopPc.task, hpc]
    · cases hloop : d.pc <;> simp_all [LoopPc.waiting, Proc.owns, LoopPc.task]

end Runs

/-- The event neither requests the cancellation of task `t` while a dispatcher waits for a
permit with it, nor drops a task with a destructor that panics in a dispatcher of a pool that
is not shut down. -/
def keepsWaiting (t : Nat) (s : Pool σ R) (a : PoolEvent R) : Bool :=
  sparesWaiting t s a && keepsDispatchers s a

/-- In every run of a pool in which no cancellation of task `t` lands while a dispatcher waits
for a permit with it, and no dispatcher is hit by a destructor that panics before the token is
cancelled: if `t` is cancelled before its dispatcher has the permit, `t` is never polled and
never enters the registry, and it is settled as cancelled or dropped by a shutdown. -/
theorem cancelled_while_waiting_never_runs (σ R : Type) [Semaphore σ] (cfg : PoolConfig)
    (t : Nat) (s s' : Pool σ R)
    (h : (poolMachine σ R cfg).Reachable (fun s a => keepsWaiting t s a = true) s)
    (hsteps : (poolMachine σ R cfg).Steps (fun s a => keepsWaiting t s a = true) s s')
    (hflag : s.shared.isCancelled t = true)
    (hwaiting : 0 < s.shared.queued t ∨ ∃ pid d, s.At pid (.loop d) ∧
      (d.pc = .precheck false t ∨ d.pc.waiting = some t)) :
    (s'.shared.tasks t).polls = 0 ∧ ¬ s'.shared.inRegistry cfg t ∧
      ((s'.shared.tasks t).sender = .live ∨
        (s'.shared.tasks t).sender = .used (.error .taskCancelled) ∨
        (s'.shared.tasks t).sender = .dropped ∧ s'.shared.token = true) := by
  have hcalm : (poolMachine σ R cfg).Reachable (fun s a => sparesWaiting t s a = true) s :=
    h.mono fun s a hok => (Bool.and_eq_true_iff.mp hok).1
  have hstart := spared_of_waiting hcalm hflag hwaiting
  have hspared := hstart.steps h.any hsteps
  have hreach := h.trans hsteps
  obtain ⟨-, hpolls, hregistry⟩ := hspared.never_started hreach
  refine ⟨hpolls, hregistry, hspared.settled hreach fun hdropped => ?_⟩
  refine Spared.dropped_shut ?_ h hstart (live_of_waiting h hwaiting) hsteps hdropped
  intro s b pid d hok hp hstruck
  have hkeeps := (Bool.and_eq_true_iff.mp hok).2
  simpa [keepsDispatchers, hp, hstruck] using hkeeps

/-- A relaxed pool with one permit, which task 0 holds, and with task 1 queued and
then cancelled. -/
def queuedCancelled : Pool FairSemaphore Nat :=
  let M := poolMachine FairSemaphore Nat (.rlxd 1 1 1 "pool")
  M.after (keepsWaiting 1)
    (.call (.submit 0 ∅ (.ready 7)) :: stepping (List.replicate 11 1) ++
      .call (.submit 0 ∅ (.ready 8)) :: stepping (List.replicate 11 3) ++ [.call (.cancel 1)])
    M.init

/-- The dispatcher takes task 1 out of its lane. -/
def queuedAnswered : Pool FairSemaphore Nat :=
  (poolMachine FairSemaphore Nat (.rlxd 1 1 1 "pool")).after (keepsWaiting 1)
    (stepping [0, 0, 0, 0, 0, 0]) queuedCancelled

theorem cancelled_while_waiting_never_runs_queued :
    queuedCancelled.shared.isCancelled 1 = true ∧ (queuedAnswered.shared.tasks 1).polls = 0 ∧
      (queuedAnswered.shared.tasks 1).sender = .used (.error .taskCancelled) :=
  ⟨by decide, (cancelled_while_waiting_never_runs FairSemaphore Nat (.rlxd 1 1 1 "pool") 1
    queuedCancelled queuedAnswered (Machine.steps_after _ _ _ _) (Machine.steps_after _ _ _ _)
    (by decide) (.inl (by decide))).1, rfl⟩

/-- The same pool, but the dispatcher has taken task 1 out of its lane and waits
for the permit of task 0 when task 1 is cancelled. -/
def waitingCancelled : Pool FairSemaphore Nat :=
  let M := poolMachine FairSemaphore Nat (.rlxd 1 1 1 "pool")
  M.after (fun _ _ => true)
    (.call (.submit 0 ∅ (.ready 7)) :: stepping (List.replicate 11 1) ++
      .call (.submit 0 ∅ (.ready 8)) :: stepping (List.replicate 11 3) ++
      stepping [0, 0, 0, 0] ++ [.call (.cancel 1)])
    M.init

/-- Task 0 ends, and the dispatcher gets its permit. -/
def waitingStarted : Pool FairSemaphore Nat :=
  (poolMachine FairSemaphore Nat (.rlxd 1 1 1 "pool")).after (fun _ _ => true)
    (stepping [2, 2, 2, 2, 2, 2, 2] ++ stepping [0, 0, 0, 0, 0, 0, 0] ++ stepping [4])
    waitingCancelled

/-- Task 1 was cancelled before its dispatcher had a permit, and its future is
polled all the same. -/
theorem cancelled_while_waiting_is_polled :
    (poolMachine FairSemaphore Nat (.rlxd 1 1 1 "pool")).Reachable Machine.anyStep
        waitingCancelled ∧
      (poolMachine FairSemaphore Nat (.rlxd 1 1 1 "pool")).Steps Machine.anyStep
        waitingCancelled waitingStarted ∧
      waitingCancelled.shared.isCancelled 1 = true ∧
      waitingCancelled.procs[0]? = some (.loop ⟨0, .acquireToken (some 1), false⟩) ∧
      (waitingStarted.shared.tasks 1).polls = 1 :=
  ⟨(Machine.steps_after _ _ _ _).any, (Machine.steps_after _ _ _ _).any, by decide, rfl,
    by decide⟩

end FuturesOrchestra
