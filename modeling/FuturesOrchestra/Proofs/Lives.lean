import FuturesOrchestra.Lifecycle
import FuturesOrchestra.Proofs.Settlement

/-!
# The pool gives every task a life

`Pool.life s t` is what a state of the pool says about task `t` in the terms of
the specification, and each step of the pool is one turn in the life of a task,
or none: `lives`. What holds of every life then holds of every task in every run.
-/

namespace FuturesOrchestra

open Interleaving

variable {σ R : Type} {cfg : PoolConfig} {pid t u : Nat} {sh sh' : Shared σ R}
  {sp : Option (Proc R)}

/-- What the last poll of the future did; before the first one it is pending. -/
def Task.lastPoll (task : Task R) : Poll R :=
  match task.polls with
  | 0 => .pending
  | n + 1 => task.future.poll n

theorem Task.lastPoll_of_returned {task : Task R} {v : R} (h : task.returned = some v) :
    task.lastPoll = .ready v := by
  unfold returned at h
  unfold lastPoll
  cases hpolls : task.polls with
  | zero =>
    rw [hpolls] at h
    cases h
  | succ n =>
    rw [hpolls] at h
    cases hpoll : task.future.poll n with
    | ready w =>
      simp only [hpoll, Option.some.injEq] at h
      exact hpoll.trans (congrArg Poll.ready h)
    | _ =>
      simp only [hpoll] at h
      cases h

theorem Task.lastPoll_of_hasPanicked {task : Task R} (h : task.hasPanicked = true) :
    task.lastPoll = .panicked := by
  unfold hasPanicked at h
  unfold lastPoll
  cases hpolls : task.polls with
  | zero =>
    rw [hpolls] at h
    cases h
  | succ n =>
    rw [hpolls] at h
    cases hpoll : task.future.poll n with
    | panicked => exact hpoll
    | _ =>
      simp only [hpoll] at h
      cases h

theorem Task.lastPoll_eq {a b : Task R} (hfuture : b.future = a.future)
    (hpolls : b.polls = a.polls) : b.lastPoll = a.lastPoll := by
  simp only [lastPoll, hfuture, hpolls]

/-! ## The view -/

/-- Where a process that owns a task has got it to. -/
def Proc.stage : Proc R → Phase R
  | .submit _ => .offered
  | .loop _ => .taken
  | _ => .running

/-- Where a task that exists is in its life. -/
def Pool.phase (s : Pool σ R) (t : Nat) : Phase R :=
  match (s.shared.tasks t).sender with
  | .used result => .settled result
  | .dropped => .discarded
  | .live =>
    if 0 < s.shared.queued t then .queued
    else if 0 < s.tally (Proc.submitting t) then .offered
    else if 0 < s.tally (Proc.inHand t) then .taken
    else .running

/-- What the data of a task shows of its life. -/
def Task.face (task : Task R) (phase : Phase R) : Life R :=
  ⟨phase, task.future, task.polls, task.isCancelled, task.accepted⟩

/-- What a state says about a task. -/
def Pool.life (s : Pool σ R) (t : Nat) : Life R :=
  if t < s.shared.nextTaskId then (s.shared.tasks t).face (s.phase t) else .absent

section View

variable {s : Pool σ R}

theorem Pool.life_of_lt (ht : t < s.shared.nextTaskId) :
    Pool.life s t = (s.shared.tasks t).face (Pool.phase s t) := if_pos ht

theorem Pool.life_of_ge (ht : ¬t < s.shared.nextTaskId) : Pool.life s t = .absent := if_neg ht

@[simp] theorem Task.lastPoll_face (task : Task R) (phase : Phase R) :
    (task.face phase).lastPoll = task.lastPoll := rfl

/-- A task is where it was when its sender, the queues and the processes that
hold it are as they were. -/
theorem Pool.phase_kept {s' : Pool σ R}
    (hsender : (s'.shared.tasks t).sender = (s.shared.tasks t).sender)
    (hqueued : s'.shared.queued t = s.shared.queued t)
    (hsubmitting : s'.tally (Proc.submitting t) = s.tally (Proc.submitting t))
    (hhand : s'.tally (Proc.inHand t) = s.tally (Proc.inHand t)) :
    Pool.phase s' t = Pool.phase s t := by
  rw [phase, phase, hsender, hqueued, hsubmitting, hhand]

theorem Pool.phase_of_used {r : Except PoolError R}
    (h : (s.shared.tasks t).sender = .used r) : Pool.phase s t = .settled r := by
  rw [phase, h]

theorem Pool.phase_of_dropped (h : (s.shared.tasks t).sender = .dropped) :
    Pool.phase s t = .discarded := by
  rw [phase, h]

variable [Semaphore σ] {ok : Pool σ R → PoolEvent R → Prop} {p : Proc R}

theorem Pool.phase_of_queued (h : (poolMachine σ R cfg).Reachable ok s)
    (ht : 0 < s.shared.queued t) : Pool.phase s t = .queued := by
  rw [phase, (live_of_queued h ht).2]
  exact if_pos ht

/-- The process that owns a task says where it is. -/
theorem Pool.phase_of_owns (h : (poolMachine σ R cfg).Reachable ok s) (hp : s.At pid p)
    (ho : p.owns = some t) : Pool.phase s t = p.stage := by
  have hc := Proc.carries_of_owns ho
  have hqueued : ¬0 < s.shared.queued t := by
    rw [not_queued_of_carries h hp hc]
    exact Nat.lt_irrefl 0
  have halone {q : Proc R} {qid : Nat} (hq : s.At qid q) (hqc : q.carries = some t) : q = p := by
    obtain rfl := carrier_unique h hq hp hqc hc
    exact Option.some.inj (hq.symm.trans hp)
  have hnone {g : Proc R → Nat} (hzero : g p = 0)
      (hg : ∀ q, g q ≠ 0 → q.carries = some t) : s.tally g = 0 := by
    refine Threads.tally_eq_zero fun qid q hq => ?_
    by_contra hne
    have hsame := halone hq (hg q hne)
    rw [hsame] at hne
    exact hne hzero
  have hsubmits : ∀ q : Proc R, Proc.submitting t q ≠ 0 → q.carries = some t := by
    intro q hq
    cases q with
    | submit c => simpa [Proc.submitting, names, Proc.carries] using hq
    | _ => simp [Proc.submitting] at hq
  have hholds : ∀ q : Proc R, Proc.inHand t q ≠ 0 → q.carries = some t := by
    intro q hq
    cases q with
    | loop d => simpa [Proc.inHand, names, Proc.carries] using hq
    | _ => simp [Proc.inHand] at hq
  rw [phase, live_of_owns h hp ho]
  simp only [if_neg hqueued]
  cases p with
  | submit c =>
    have htask : c.pc.task = some t := ho
    have hle := Threads.le_tally (g := Proc.submitting t) hp
    simp only [Proc.submitting, htask, names_self] at hle
    exact if_pos hle
  | loop d =>
    have htask : d.pc.task = some t := ho
    have hle := Threads.le_tally (g := Proc.inHand t) hp
    simp only [Proc.inHand, htask, names_self] at hle
    rw [hnone rfl hsubmits]
    exact if_pos hle
  | wrapper w =>
    rw [hnone rfl hsubmits, hnone rfl hholds]
    rfl
  | _ => cases ho

end View

/-! ## A future that is polled has not ended -/

section Calm

variable [Semaphore σ] {ok : Pool σ R → PoolEvent R → Prop} {s : Pool σ R}

/-- The wrapper is about to poll or waits to poll again. -/
def WrapperPc.polling : WrapperPc R → Bool
  | .poll | .selectCancelled => true
  | _ => false

theorem WrapperStep.calm {w w' : Wrapper R} (h : WrapperStep cfg sh w sh' w')
    (hw : w.pc.polling = true → (sh.tasks w.task).lastPoll = .pending)
    (hw' : w'.pc.polling = true) : (sh'.tasks w'.task).lastPoll = .pending := by
  cases h with
  | pollPending hpc hpoll => simpa [Task.lastPoll, Task.countPoll] using hpoll
  | wake hpc => exact hw (by simp [hpc, WrapperPc.polling])
  | _ => cases hw'

/-- A wrapper that polls its future has seen it pending. -/
theorem lastPoll_pending (h : (poolMachine σ R cfg).Reachable ok s) :
    ∀ pid w, s.At pid (.wrapper w) → w.pc.polling = true →
      (s.shared.tasks w.task).lastPoll = .pending := by
  refine Pool.induct (I := fun s => ∀ pid w, s.At pid (.wrapper w) → w.pc.polling = true →
    (s.shared.tasks w.task).lastPoll = .pending) .refl ?_ ?_ h ?_
  · intro s b pid p sh p' sp hreach hs _ hp hstep qid w hw hpolling
    have hkept {u : Nat} (hlt : u < s.shared.nextTaskId)
        (hno : ∀ v, p = .wrapper v → v.pc = .poll → v.task ≠ u) :
        (sh.tasks u).lastPoll = (s.shared.tasks u).lastPoll :=
      Task.lastPoll_eq ((Shared.Evolves.proc hstep).tasks u hlt).future
        (hstep.polls_kept hlt hno)
    rcases Threads.update_getElem? hp hw with ⟨rfl, rfl⟩ | ⟨hne, hold⟩ | ⟨_, hnew⟩
    · cases hstep with
      | wrapper hstep => exact hstep.calm (hs _ _ hp) hpolling
      | bystander _ hby' => exact hby'.elim
    · have hlt := lt_of_carries hreach hold rfl
      rw [Threads.update_shared, hkept hlt]
      · exact hs qid w hold hpolling
      · rintro v rfl _ htask
        exact hne (carrier_unique hreach hold hp rfl (by simp [Proc.carries, htask]))
    · subst hnew
      have hc := Proc.carries_of_owns hstep.spawned.1
      have hlt := lt_of_carries hreach hp hc
      have hno : ∀ v, p ≠ .wrapper v := by
        rintro v rfl
        cases hstep with
        | bystander hby => exact hby.elim
      have hun := unstarted_of_carries hreach hp hc hno
      have hpolls := (verdicts hreach).unpolled w.task hlt hun
      rw [Threads.update_shared, hkept hlt fun v hv => absurd hv (hno v)]
      simp [Task.lastPoll, hpolls]
  · intro s c sh sp _ hs _ hquiet hfresh qid w hw hpolling
    rcases Threads.spawn_getElem? hw with hold | ⟨_, hnew⟩
    · have hevolves := hquiet.tasks w.task
      rw [Threads.spawn_shared, Task.lastPoll_eq (Task.Evolves.touched hevolves).future
        hevolves.polls]
      exact hs qid w hold hpolling
    · cases hfresh _ hnew with
      | bystander hby => exact hby.elim
  · intro pid w hw
    obtain ⟨-, hloop⟩ := Pool.init_loop hw
    cases hloop

end Calm

/-! ## The turns -/

section Turns

variable {s s' : Pool σ R} {p p' : Proc R} {ph ph' : Phase R}

/-- A turn of the specification, from the phases before and after it. -/
theorem Pool.turn (a : Turn R) (ht : t < s.shared.nextTaskId) (ht' : t < s'.shared.nextTaskId)
    (hbefore : Pool.phase s t = ph) (hafter : Pool.phase s' t = ph')
    (h : ((s.shared.tasks t).face ph).step a = some ((s'.shared.tasks t).face ph')) :
    (lifeMachine R).StepOrStay (Pool.life s t) (Pool.life s' t) := by
  refine .inr ⟨a, ?_⟩
  rw [Pool.life_of_lt ht, Pool.life_of_lt ht', hbefore, hafter]
  exact h

/-- A step that neither changes what a task shows nor moves it. -/
theorem Pool.stay (hp : s.At pid p) (hnext : t < sh.nextTaskId ↔ t < s.shared.nextTaskId)
    (hsender : (sh.tasks t).sender = (s.shared.tasks t).sender)
    (hface : (sh.tasks t).face = (s.shared.tasks t).face)
    (hqueued : sh.queued t = s.shared.queued t)
    (hsubmitting : Proc.submitting t p' + Threads.started (Proc.submitting t) sp =
      Proc.submitting t p)
    (hhand : Proc.inHand t p' + Threads.started (Proc.inHand t) sp = Proc.inHand t p) :
    (lifeMachine R).StepOrStay (Pool.life s t) (Pool.life (s.update pid sh p' sp) t) := by
  have hsub := Threads.tally_update (Proc.submitting t) sh p' sp hp
  have hin := Threads.tally_update (Proc.inHand t) sh p' sp hp
  have hphase : Pool.phase (s.update pid sh p' sp) t = Pool.phase s t :=
    Pool.phase_kept hsender hqueued (by omega) (by omega)
  refine .inl ?_
  by_cases ht : t < s.shared.nextTaskId
  · rw [Pool.life_of_lt ht, Pool.life_of_lt (s := s.update pid sh p' sp) (hnext.mpr ht), hphase,
      Threads.update_shared, hface]
  · rw [Pool.life_of_ge ht, Pool.life_of_ge (s := s.update pid sh p' sp) (mt hnext.mp ht)]

variable [Semaphore σ]

theorem SubmitStep.turn {c c' : SubmitCall R}
    (hreach : (poolMachine σ R cfg).Reachable Machine.anyStep s) (hp : s.At pid (.submit c))
    (hstep : SubmitStep cfg.kind pid s.shared c sh c' sp)
    (hreach' : (poolMachine σ R cfg).Reachable Machine.anyStep (s.update pid sh (.submit c') sp)) :
    (lifeMachine R).StepOrStay (Pool.life s t) (Pool.life (s.update pid sh (.submit c') sp) t) := by
  have hself : (s.update pid sh (.submit c') sp).At pid (.submit c') := Threads.update_self hp
  have hdrop {u : Nat} {sh₁ : Shared σ R} {e : SubmitPc} {unwound : Bool}
      (htask : c.pc.task = some u) (htasks : sh₁.tasks = s.shared.tasks)
      (hlanes : sh₁.lanes = s.shared.lanes) (hnext : sh₁.nextTaskId = s.shared.nextTaskId)
      (he : e.task = none) :
      (lifeMachine R).StepOrStay (Pool.life s t) (Pool.life
        (s.update pid (sh₁.withdraw c u) (.submit { c with pc := e, unwound := unwound }) none) t) := by
    by_cases ht : t = u
    · subst ht
      have howns : (Proc.submit c).owns = some t := htask
      have hlive := live_of_owns hreach hp howns
      have hlt := lt_of_carries hreach hp htask
      have hlt' : t < (sh₁.withdraw c t).nextTaskId := hnext ▸ hlt
      refine Pool.turn .refuse hlt hlt' (Pool.phase_of_owns hreach hp howns)
        (Pool.phase_of_dropped ?_) ?_
      all_goals simp [htasks, Task.dropSender, Task.dropReceiver, hlive, Life.step, Task.face,
        Proc.stage, Task.isCancelled]
    · refine Pool.stay hp (by simp [hnext]) (by simp [ht, htasks]) (by simp [ht, htasks])
        (Shared.queued_eq hlanes) ?_ (by simp [Proc.inHand])
      rw [Proc.submitting, Proc.submitting, htask, names_other ht, he]
      rfl
  cases hstep with
  | create hkind hpc | createScan hkind hpc =>
    by_cases ht : t = s.shared.nextTaskId
    · subst ht
      refine .inr ⟨.offer c.future, ?_⟩
      rw [Pool.life_of_ge (Nat.lt_irrefl _), Pool.life_of_lt (by simp)]
      rw [Pool.phase_of_owns hreach' hself (by simp [Proc.owns, SubmitPc.task])]
      simp [lifeMachine, Life.step, Life.absent, Task.face, Task.new, Proc.stage,
        Task.isCancelled, TaskCore.new]
    · refine Pool.stay hp ?_ (by simp [ht]) (by simp [ht]) rfl ?_ (by simp [Proc.inHand])
      · simp only [Shared.createTask_nextTaskId]
        omega
      · simp [Proc.submitting, SubmitPc.task, hpc, names_other ht]
  | @push u lane l hpc hlane hrecv =>
    have htask : c.pc.task = some u := by simp [SubmitPc.task, hpc]
    have hpush (v : Nat) : (((s.shared.setLane lane { l with items := l.items ++ [v] }).modifyTask v
        Task.accept).unborrow c.clone).queued t = s.shared.queued t + names t (some v) :=
      Shared.queued_push hlane
    by_cases ht : t = u
    · subst ht
      have hlt := lt_of_carries hreach hp htask
      have hqueued := hpush t
      rw [names_self] at hqueued
      refine Pool.turn .enqueue hlt hlt (Pool.phase_of_owns hreach hp htask)
        (Pool.phase_of_queued hreach' (by simp only [Threads.update_shared]; omega)) ?_
      simp [Life.step, Task.face, Task.accept, Proc.stage, Task.isCancelled]
    · have hqueued := hpush u
      rw [names_other ht] at hqueued
      refine Pool.stay hp Iff.rfl (by simp [ht]) (by simp [ht]) hqueued ?_ (by simp [Proc.inHand])
      simp [Proc.submitting, SubmitPc.task, hpc, names_other ht]
  | @spawn u shard sender hkind hpc =>
    have htask : c.pc.task = some u := by simp [SubmitPc.task, hpc]
    by_cases ht : t = u
    · subst ht
      have hlt := lt_of_carries hreach hp htask
      have hnew : (s.update pid ((s.shared.modifyTask t Task.accept).unborrow c.clone)
          (.submit (c.goto (.returned (.ok t)))) (some (.wrapper ⟨t, shard, sender, .poll⟩))).At
          s.procs.length (.wrapper ⟨t, shard, sender, .poll⟩) :=
        Threads.update_new _
      refine Pool.turn .launch hlt hlt (Pool.phase_of_owns hreach hp htask)
        (Pool.phase_of_owns hreach' hnew (by simp [Proc.owns, WrapperPc.unsettled])) ?_
      simp [Life.step, Task.face, Task.accept, Proc.stage, Task.isCancelled]
    · refine Pool.stay hp Iff.rfl (by simp [ht]) (by simp [ht]) rfl ?_ (by simp [Proc.inHand])
      simp [Proc.submitting, SubmitPc.task, hpc, names_other ht]
  | @reject u hpc | @abandon u hpc =>
    exact hdrop (by rcases hpc with hpc | hpc <;> simp [SubmitPc.task, hpc]) rfl rfl rfl rfl
  | @selectCancelled u hpc => exact hdrop (by simp [SubmitPc.task, hpc]) rfl rfl rfl rfl
  | @pushFails u lane l hpc => exact hdrop (by simp [SubmitPc.task, hpc]) rfl rfl rfl rfl
  | refuse hpc =>
    refine Pool.stay hp Iff.rfl rfl rfl rfl ?_ (by simp [Proc.inHand])
    rcases hpc with hpc | hpc <;> simp [Proc.submitting, SubmitPc.task, hpc]
  | _ =>
    refine Pool.stay hp Iff.rfl rfl rfl rfl ?_ (by simp [Proc.inHand])
    simp [Proc.submitting, SubmitPc.task, *]

theorem LoopStep.turn {d d' : DispatcherLoop}
    (hreach : (poolMachine σ R cfg).Reachable Machine.anyStep s) (hp : s.At pid (.loop d))
    (hstep : LoopStep cfg pid s.shared d sh d' sp)
    (hreach' : (poolMachine σ R cfg).Reachable Machine.anyStep (s.update pid sh (.loop d') sp)) :
    (lifeMachine R).StepOrStay (Pool.life s t) (Pool.life (s.update pid sh (.loop d') sp) t) := by
  have hself : (s.update pid sh (.loop d') sp).At pid (.loop d') := Threads.update_self hp
  have hverdicts := verdicts hreach
  -- a loop that holds nothing takes `u` out of its lane and drops it
  have hdiscard {u : Nat} {items : List Nat} {receiver done : Bool} {d' : DispatcherLoop}
      (hlane : s.shared.lanes[d.lane]? = some ⟨u :: items, receiver, done⟩)
      (htask : d.pc.task = none) (htask' : d'.pc.task = none) :
      (lifeMachine R).StepOrStay (Pool.life s t) (Pool.life (s.update pid
        ((s.shared.setLane d.lane ⟨items, receiver, done⟩).releaseSlot.modifyTask u
          Task.dropSender) (.loop d') none) t) := by
    have htake := Shared.queued_take (t := t) hlane
    by_cases ht : t = u
    · subst ht
      rw [names_self] at htake
      obtain ⟨hlt, hlive⟩ := live_of_queued hreach (t := t) (by omega)
      refine Pool.turn .discard hlt hlt (Pool.phase_of_queued hreach (by omega))
        (Pool.phase_of_dropped ?_) ?_
      all_goals simp [Task.dropSender, hlive, Life.step, Task.face, Task.isCancelled]
    · rw [names_other ht] at htake
      refine Pool.stay hp Iff.rfl (by simp [ht]) (by simp [ht]) htake rfl ?_
      simp [Proc.inHand, htask, htask']
  -- a loop drops the task it holds
  have hdrop {u : Nat} {d' : DispatcherLoop} (htask : d.pc.task = some u)
      (htask' : d'.pc.task = none) :
      (lifeMachine R).StepOrStay (Pool.life s t)
        (Pool.life (s.update pid (s.shared.modifyTask u Task.dropSender) (.loop d') none) t) := by
    by_cases ht : t = u
    · subst ht
      have howns : (Proc.loop d : Proc R).owns = some t := htask
      have hlt := lt_of_carries hreach hp htask
      have hlive := live_of_owns hreach hp howns
      refine Pool.turn .discard hlt hlt (Pool.phase_of_owns hreach hp howns)
        (Pool.phase_of_dropped ?_) ?_
      all_goals simp [Task.dropSender, hlive, Life.step, Task.face, Proc.stage, Task.isCancelled]
    · refine Pool.stay hp Iff.rfl (by simp [ht]) (by simp [ht]) rfl rfl ?_
      simp [Proc.inHand, htask, htask', names_other ht]
  cases hstep with
  | @recv u items receiver done hkind hpc hlane | @recvRlxd u items receiver done hkind hpc hlane =>
    have htake := Shared.queued_take (t := t) hlane
    by_cases ht : t = u
    · subst ht
      rw [names_self] at htake
      obtain ⟨hlt, -⟩ := live_of_queued hreach (t := t) (by omega)
      refine Pool.turn .take hlt hlt (Pool.phase_of_queued hreach (by omega))
        (Pool.phase_of_owns hreach' hself (by simp [Proc.owns, LoopPc.task])) ?_
      simp [Life.step, Task.face, Proc.stage]
    · rw [names_other ht] at htake
      refine Pool.stay hp Iff.rfl rfl rfl htake rfl ?_
      simp [Proc.inHand, LoopPc.task, hpc, names_other ht]
  | recvDiscard hkind hpc hlane => exact hdiscard hlane (by simp [LoopPc.task, hpc]) rfl
  | drain hpc hlane => exact hdiscard hlane (by simp [LoopPc.task, hpc]) rfl
  | guardStop hkind hpc => exact hdrop (by simp [LoopPc.task, hpc]) rfl
  | exitHand hpc => exact hdrop (by simp [LoopPc.task, hpc]) rfl
  | @cancelSend permit u hpc =>
    have htask : d.pc.task = some u := by simp [LoopPc.task, hpc]
    by_cases ht : t = u
    · subst ht
      have howns : (Proc.loop d : Proc R).owns = some t := htask
      have hlt := lt_of_carries hreach hp htask
      have hlive := live_of_owns hreach hp howns
      have hknows := hverdicts.knows pid _ hp
      have hflag : (s.shared.tasks t).isCancelled = true := by
        simpa [Proc.Knows, LoopPc.Knows, hpc, Shared.isCancelled] using hknows
      refine Pool.turn .finishCancelled hlt hlt (Pool.phase_of_owns hreach hp howns)
        (Pool.phase_of_used (r := .error .taskCancelled) ?_) ?_
      · simp [Task.send, hlive]
      · simp only [Task.isCancelled] at hflag
        simp [Task.send, hlive, Life.step, Task.face, Proc.stage, Task.isCancelled, hflag]
    · refine Pool.stay hp Iff.rfl (by simp [ht]) (by simp [ht]) rfl rfl ?_
      rw [Proc.inHand, Proc.inHand, htask, names_other ht]
      rfl
  | @spawn u slot sender hpc =>
    -- the task goes from the hand of the loop to the wrapper it starts
    have htask : d.pc.task = some u := by simp [LoopPc.task, hpc]
    by_cases ht : t = u
    · subst ht
      have hlt := lt_of_carries hreach hp htask
      have hnew : (s.update pid s.shared (.loop (d.goto .top))
          (some (.wrapper ⟨t, slot, sender, .poll⟩))).At s.procs.length
          (.wrapper ⟨t, slot, sender, .poll⟩) :=
        Threads.update_new _
      refine Pool.turn .start hlt hlt (Pool.phase_of_owns hreach hp htask)
        (Pool.phase_of_owns hreach' hnew (by simp [Proc.owns, WrapperPc.unsettled])) ?_
      simp [Life.step, Task.face, Proc.stage]
    · refine Pool.stay hp Iff.rfl rfl rfl rfl rfl ?_
      simp [Proc.inHand, LoopPc.task, hpc, names_other ht]
  | @exitReceiver l hpc hlane | @exitLast l hpc hlane =>
    have hset := Shared.queued_setLane (t := t) { l with receiver := false } hlane
    refine Pool.stay hp Iff.rfl rfl rfl (Nat.add_right_cancel hset) rfl ?_
    simp [Proc.inHand, LoopPc.task, hpc]
  | @drained receiver done hpc hlane =>
    have hset := Shared.queued_setLane (t := t) ⟨[], receiver, true⟩ hlane
    refine Pool.stay hp Iff.rfl rfl rfl (Nat.add_right_cancel hset) rfl ?_
    simp [Proc.inHand, LoopPc.task, hpc]
  | _ =>
    refine Pool.stay hp Iff.rfl rfl rfl rfl rfl ?_
    simp [Proc.inHand, LoopPc.task, *]

theorem WrapperStep.turn {w w' : Wrapper R}
    (hreach : (poolMachine σ R cfg).Reachable Machine.anyStep s) (hp : s.At pid (.wrapper w))
    (hstep : WrapperStep cfg s.shared w sh w')
    (hreach' : (poolMachine σ R cfg).Reachable Machine.anyStep (s.update pid sh (.wrapper w') none)) :
    (lifeMachine R).StepOrStay (Pool.life s t) (Pool.life (s.update pid sh (.wrapper w') none) t) := by
  have hself : (s.update pid sh (.wrapper w') none).At pid (.wrapper w') := Threads.update_self hp
  have hlt : w.task < s.shared.nextTaskId := lt_of_carries hreach hp rfl
  have hknows := (verdicts hreach).knows pid _ hp
  cases hstep with
  | pollPending hpc | pollReady hpc | pollPanicked hpc =>
    by_cases ht : t = w.task
    · subst ht
      have howns : (Proc.wrapper w).owns = some w.task := by
        simp [Proc.owns, WrapperPc.unsettled, hpc]
      have hlast := lastPoll_pending hreach pid w hp (by simp [hpc, WrapperPc.polling])
      refine Pool.turn .poll hlt hlt (Pool.phase_of_owns hreach hp howns)
        (Pool.phase_of_owns hreach' hself (by simp [Proc.owns, WrapperPc.unsettled])) ?_
      simp only [Life.step, Proc.stage, Task.lastPoll_face, hlast]
      simp [Task.face, Task.countPoll, Task.isCancelled]
    · exact Pool.stay hp Iff.rfl (by simp [ht]) (by simp [ht]) rfl rfl rfl
  | finish hkind hpc =>
    -- the finished mark is no part of a life
    refine Pool.stay hp Iff.rfl ?_ ?_ rfl rfl rfl
    · by_cases ht : t = w.task <;> simp [ht]
    · by_cases ht : t = w.task
      · funext phase
        simp [ht, Task.face, Task.markFinished, Task.isCancelled, TaskCore.markFinished]
      · simp [ht]
  | @send result hpc | @sendUnwind result hpc =>
    by_cases ht : t = w.task
    · subst ht
      have howns : (Proc.wrapper w).owns = some w.task := by
        simp [Proc.owns, WrapperPc.unsettled, hpc]
      have hlive := live_of_owns hreach hp howns
      have hfits : (s.shared.tasks w.task).Fits result := by
        simpa [Proc.Knows, WrapperPc.Knows, hpc] using hknows
      have hafter : ∀ phase, ((s.shared.tasks w.task).send result).face phase =
          (s.shared.tasks w.task).face phase := by
        intro phase
        simp [Task.face, Task.send, hlive, Task.isCancelled]
      have hturn {w' : Wrapper R} (a : Turn R) (h : ((s.shared.tasks w.task).face .running).step a =
          some ((s.shared.tasks w.task).face (.settled result))) :
          (lifeMachine R).StepOrStay (Pool.life s w.task) (Pool.life
            (s.update pid (s.shared.modifyTask w.task (Task.send · result)) (.wrapper w') none)
            w.task) := by
        refine Pool.turn a hlt hlt (Pool.phase_of_owns hreach hp howns)
          (Pool.phase_of_used (r := result) (by simp [Task.send, hlive])) ?_
        simp only [Threads.update_shared, Shared.modifyTask_tasks, if_true, hafter]
        exact h
      -- what is sent fits the last poll or the flag, so it is the turn it should be
      cases result with
      | ok v =>
        refine hturn .finish ?_
        simp only [Life.step, Task.lastPoll_face, Task.lastPoll_of_returned hfits]
        rfl
      | error e =>
        cases e with
        | taskPanicked =>
          refine hturn .finish ?_
          simp only [Life.step, Task.lastPoll_face, Task.lastPoll_of_hasPanicked hfits]
          rfl
        | taskCancelled =>
          refine hturn .finishCancelled ?_
          have hflag : (s.shared.tasks w.task).isCancelled = true := hfits
          simp [Life.step, Task.face, hflag]
        | _ => exact hfits.elim
    · exact Pool.stay hp Iff.rfl (by simp [ht]) (by simp [ht]) rfl rfl rfl
  | unwind hpc =>
    by_cases ht : t = w.task
    · subst ht
      have howns : (Proc.wrapper w).owns = some w.task := by
        simp [Proc.owns, WrapperPc.unsettled, hpc]
      have hlive := live_of_owns hreach hp howns
      have hlost : (s.shared.tasks w.task).Lost := by
        simpa [Proc.Knows, WrapperPc.Knows, hpc] using hknows
      refine Pool.turn .lose hlt hlt (Pool.phase_of_owns hreach hp howns)
        (Pool.phase_of_dropped (by simp [Task.dropSender, hlive])) ?_
      have hlosing : ((s.shared.tasks w.task).face .running).losing = true := by
        rcases hlost with ⟨hflag, hdrop, hreturned⟩ | ⟨hdrop, hpanicked⟩
        · obtain ⟨v, hv⟩ := Option.isSome_iff_exists.mp hreturned
          simp only [Life.losing, Task.lastPoll_face, Task.lastPoll_of_returned hv]
          simp [Task.face, hflag, hdrop]
        · simp only [Life.losing, Task.lastPoll_face, Task.lastPoll_of_hasPanicked hpanicked]
          simp [Task.face, hdrop]
      simp only [Life.step, Proc.stage, hlosing]
      simp [Task.face, Task.dropSender, hlive, Task.isCancelled]
    · exact Pool.stay hp Iff.rfl (by simp [ht]) (by simp [ht]) rfl rfl rfl
  | _ => exact Pool.stay hp Iff.rfl rfl rfl rfl rfl rfl

omit [Semaphore σ] in
theorem Pool.phase_ne_absent (s : Pool σ R) (t : Nat) : Pool.phase s t ≠ .absent := by
  unfold Pool.phase
  split
  · rintro ⟨⟩
  · rintro ⟨⟩
  · split
    · rintro ⟨⟩
    · split
      · rintro ⟨⟩
      · split <;> rintro ⟨⟩

omit [Semaphore σ] in
/-- A step that concerns no task may request a cancellation, and that is all. -/
theorem Shared.Quiet.turn (hquiet : s.shared.Quiet s'.shared)
    (hphase : Pool.phase s' t = Pool.phase s t) :
    (lifeMachine R).StepOrStay (Pool.life s t) (Pool.life s' t) := by
  by_cases ht : t < s.shared.nextTaskId
  · have ht' : t < s'.shared.nextTaskId := by rwa [hquiet.nextTaskId]
    have htouched := hquiet.tasks t
    have hstay (hface : ∀ phase, (s'.shared.tasks t).face phase = (s.shared.tasks t).face phase) :
        (lifeMachine R).StepOrStay (Pool.life s t) (Pool.life s' t) := by
      refine .inl ?_
      rw [Pool.life_of_lt ht, Pool.life_of_lt ht', hphase, hface]
    cases hs' : s'.shared.tasks t with
    | mk core future polls sender receiver accepted =>
      rw [hs'] at htouched hstay
      generalize hs : s.shared.tasks t = task at htouched hstay
      cases htouched with
      | refl => exact hstay fun _ => rfl
      | dropReceiver => exact hstay fun _ => rfl
      | cancel =>
        refine Pool.turn .cancel ht ht' rfl hphase ?_
        rw [hs, hs']
        have habsent := Pool.phase_ne_absent s t
        generalize Pool.phase s t = phase at habsent
        cases phase with
        | absent => exact absurd rfl habsent
        | _ => rfl
  · refine .inl ?_
    rw [Pool.life_of_ge ht, Pool.life_of_ge (s := s') (by rwa [hquiet.nextTaskId])]

omit [Semaphore σ] in
theorem Proc.holds_of_bystander (hp : p.bystander) (t : Nat) :
    Proc.submitting t p = 0 ∧ Proc.inHand t p = 0 := by
  cases p with
  | submit | loop | wrapper => exact hp.elim
  | _ => exact ⟨rfl, rfl⟩

/-- A step of a process is one turn in the life of a task, or none. -/
theorem Proc.Step.turn (hreach : (poolMachine σ R cfg).Reachable Machine.anyStep s)
    (hp : s.At pid p) (hstep : Proc.Step cfg pid s.shared p sh p' sp)
    (hreach' : (poolMachine σ R cfg).Reachable Machine.anyStep (s.update pid sh p' sp)) :
    (lifeMachine R).StepOrStay (Pool.life s t) (Pool.life (s.update pid sh p' sp) t) := by
  cases hstep with
  | submit hstep => exact hstep.turn hreach hp hreach'
  | loop hstep => exact hstep.turn hreach hp hreach'
  | wrapper hstep => exact hstep.turn hreach hp hreach'
  | bystander hby hby' hstep =>
    have hnew : Threads.started (Proc.submitting t) sp = 0 ∧
        Threads.started (Proc.inHand t) sp = 0 := by
      cases sp with
      | none => exact ⟨rfl, rfl⟩
      | some q => exact Proc.holds_of_bystander (hstep.2 q rfl) t
    have hbefore := Proc.holds_of_bystander hby t
    have hafter := Proc.holds_of_bystander hby' t
    have hsub := Threads.tally_update (Proc.submitting t) sh p' sp hp
    have hin := Threads.tally_update (Proc.inHand t) sh p' sp hp
    refine Shared.Quiet.turn hstep.1 (Pool.phase_kept (hstep.1.tasks t).sender
      (Shared.queued_eq hstep.1.lanes) (by omega) (by omega))

omit [Semaphore σ] in
/-- So is the start of a call. -/
theorem Call.turn (hquiet : s.shared.Quiet sh) (hfresh : ∀ q, sp = some q → q.Fresh) :
    (lifeMachine R).StepOrStay (Pool.life s t) (Pool.life (s.spawn sh sp) t) := by
  have hnone {g : Proc R → Nat} (hby : ∀ {q}, q.bystander → g q = 0)
      (hsubmit : ∀ clone labels future, g (.submit ⟨clone, labels, future, .checkToken, false⟩) = 0) :
      (s.spawn sh sp).tally g = s.tally g := by
    rw [Threads.tally_spawn, Proc.started_eq_zero hby hsubmit hfresh]
    rfl
  refine Shared.Quiet.turn hquiet (Pool.phase_kept (hquiet.tasks t).sender
    (Shared.queued_eq hquiet.lanes) ?_ ?_)
  · exact hnone (fun hby => (Proc.holds_of_bystander hby t).1) fun _ _ _ => rfl
  · exact hnone (fun hby => (Proc.holds_of_bystander hby t).2) fun _ _ _ => rfl

/-- Every run of the pool is, for each task, a life. -/
theorem lives (σ R : Type) [Semaphore σ] (cfg : PoolConfig) (t : Nat) :
    (poolMachine σ R cfg).Refines (lifeMachine R) (fun s => Pool.life s t) where
  init := rfl
  step := by
    intro s a s' hreach hnext
    have hreach' := hreach.tail trivial hnext
    cases a with
    | run b pid =>
      obtain ⟨p, sh, p', sp, hp, hrun, rfl⟩ := Program.step_run hnext
      exact (Proc.step_of_run hrun).turn hreach hp hreach'
    | call c =>
      obtain ⟨sh, sp, hcall, rfl⟩ := Program.step_call hnext
      obtain ⟨hquiet, hfresh⟩ := Call.enter_quiet hcall
      exact Call.turn hquiet hfresh

/-- What holds of every life holds of every task. -/
theorem Pool.life_sound {ok : Pool σ R → PoolEvent R → Prop}
    (h : (poolMachine σ R cfg).Reachable ok s) (t : Nat) : (Pool.life s t).Sound :=
  FuturesOrchestra.life_sound ((lives σ R cfg t).reachable h)

/-- The end of a life is final. -/
theorem Pool.life_of_ended {ok : Pool σ R → PoolEvent R → Prop}
    (hreach : (poolMachine σ R cfg).Reachable Machine.anyStep s)
    (hsteps : (poolMachine σ R cfg).Steps ok s s') (hended : (Pool.life s t).phase.ended = true) :
    (Pool.life s' t).phase = (Pool.life s t).phase ∧
      (Pool.life s' t).polls = (Pool.life s t).polls ∧
      (Pool.life s' t).accepted = (Pool.life s t).accepted := by
  refine (lives σ R cfg t).kept (I := fun l => l.phase = (Pool.life s t).phase ∧
    l.polls = (Pool.life s t).polls ∧ l.accepted = (Pool.life s t).accepted)
    ?_ hreach hsteps ⟨rfl, rfl, rfl⟩
  rintro l a l' ⟨hphase, hpolls, haccepted⟩ hstep
  obtain ⟨hphase', hpolls', haccepted'⟩ := Life.kept_of_ended (hphase ▸ hended) hstep
  exact ⟨hphase'.trans hphase, hpolls'.trans hpolls, haccepted'.trans haccepted⟩

/-- In every run of either pool each step is at most one turn in the life of a
task, a life never goes back, and its end is final: the task keeps its result, is
not polled again and is neither accepted nor given up any more. -/
theorem pool_refines_life (σ R : Type) [Semaphore σ] (cfg : PoolConfig) (t : Nat) :
    (poolMachine σ R cfg).Refines (lifeMachine R) (fun s => Pool.life s t) ∧
      ∀ s s' : Pool σ R, (poolMachine σ R cfg).Reachable Machine.anyStep s →
        (poolMachine σ R cfg).Steps Machine.anyStep s s' →
        (Pool.life s t).phase.rank ≤ (Pool.life s' t).phase.rank ∧
          ((Pool.life s t).phase.ended = true →
            (Pool.life s' t).phase = (Pool.life s t).phase ∧
              (Pool.life s' t).polls = (Pool.life s t).polls ∧
              (Pool.life s' t).accepted = (Pool.life s t).accepted) := by
  refine ⟨lives σ R cfg t, fun s s' hreach hsteps => ⟨?_, Pool.life_of_ended hreach hsteps⟩⟩
  exact (lives σ R cfg t).kept (I := fun l => (Pool.life s t).phase.rank ≤ l.phase.rank)
    (fun hle hstep => hle.trans (Life.rank_le hstep)) hreach hsteps le_rfl

/-- A task that has its result. -/
def concluded : Pool FairSemaphore Nat :=
  (poolMachine FairSemaphore Nat (.manager 1 1 "pool")).after (fun _ _ => true)
    (.call (.submit 0 ∅ (.ready 7)) :: stepping [1, 1, 1, 1, 1, 1, 1, 1] ++
      stepping [0, 0, 0, 0, 0, 0, 0, 0, 0] ++ stepping [2, 2, 2]) (Pool.new _ _ (.manager 1 1 "pool"))

/-- Its handle is used for a late cancellation. -/
def concludedLate : Pool FairSemaphore Nat :=
  (poolMachine FairSemaphore Nat (.manager 1 1 "pool")).after (fun _ _ => true)
    (.call (.cancel 0) :: stepping [2, 2, 2]) concluded

theorem pool_refines_life_concluded :
    (Pool.life concluded 0).phase = .settled (.ok 7) ∧
      (Pool.life concludedLate 0).phase = .settled (.ok 7) ∧
      (Pool.life concludedLate 0).polls = 1 := by
  have hserved : (poolMachine FairSemaphore Nat (.manager 1 1 "pool")).Reachable Machine.anyStep
      concluded := (Machine.steps_after _ _ _ _).any
  have hcancelled : (poolMachine FairSemaphore Nat (.manager 1 1 "pool")).Steps Machine.anyStep
      concluded concludedLate := (Machine.steps_after _ _ _ _).any
  obtain ⟨-, hfinal⟩ := (pool_refines_life FairSemaphore Nat (.manager 1 1 "pool") 0).2 concluded
    concludedLate hserved hcancelled
  have hphase : (Pool.life concluded 0).phase = .settled (.ok 7) := by rfl
  obtain ⟨hkept, hpolls, -⟩ := hfinal (by rw [hphase]; rfl)
  exact ⟨hphase, hkept.trans hphase, hpolls.trans (by decide)⟩

end Turns

end FuturesOrchestra
