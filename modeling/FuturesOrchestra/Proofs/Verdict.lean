import FuturesOrchestra.Proofs.Custody

/-!
# What a task is told

A result that is sent to the handle of a task is the one its future and its
cancel flag call for, and a result sender is dropped unused only while the task
has not been started, or by a wrapper that discards an outcome whose destructor
panics.
-/

namespace FuturesOrchestra

open Interleaving

variable {σ R : Type} {cfg : PoolConfig} {pid t : Nat} {sh sh' : Shared σ R}
  {sp : Option (Proc R)}

/-- The results that fit a task: the value its future has returned, a panic if
its last poll panicked, a cancellation if one was requested. -/
def Task.Fits (task : Task R) : Except PoolError R → Prop
  | .ok v => task.returned = some v
  | .error .taskPanicked => task.hasPanicked = true
  | .error .taskCancelled => task.isCancelled = true
  | .error _ => False

/-- The outcome of a task is lost when its wrapper discards it and its destructor
panics: the value of a cancelled task, or the payload of a panic. -/
def Task.Lost (task : Task R) : Prop :=
  (task.isCancelled = true ∧ task.future.resultDropPanics = true ∧ task.returned.isSome = true) ∨
    (task.future.payloadDropPanics = true ∧ task.hasPanicked = true)

theorem Task.returned_eq {a b : Task R} (hfuture : b.future = a.future)
    (hpolls : b.polls = a.polls) : b.returned = a.returned := by
  simp only [returned, hfuture, hpolls]

theorem Task.hasPanicked_eq {a b : Task R} (hfuture : b.future = a.future)
    (hpolls : b.polls = a.polls) : b.hasPanicked = a.hasPanicked := by
  simp only [hasPanicked, hfuture, hpolls]

/-- A result goes on fitting while the future is not polled. -/
theorem Task.Fits.evolve {a b : Task R} {r : Except PoolError R} (h : a.Fits r)
    (hab : a.Evolves b) (hpolls : b.polls = a.polls) : b.Fits r := by
  cases r with
  | ok v => exact (returned_eq hab.future hpolls).trans h
  | error e =>
    cases e with
    | taskPanicked => exact (hasPanicked_eq hab.future hpolls).trans h
    | taskCancelled => exact hab.cancelled h
    | _ => exact h

theorem Task.Lost.evolve {a b : Task R} (h : a.Lost) (hab : a.Evolves b)
    (hpolls : b.polls = a.polls) : b.Lost := by
  unfold Lost
  rw [hab.future, returned_eq hab.future hpolls, hasPanicked_eq hab.future hpolls]
  exact h.imp (fun hvalue => ⟨hab.cancelled hvalue.1, hvalue.2⟩) id

theorem Task.Lost.polled {task : Task R} (h : task.Lost) : 0 < task.polls := by
  refine Nat.pos_of_ne_zero fun hzero => ?_
  simp [Lost, returned, hasPanicked, hzero] at h

/-- What a dispatcher loop knows of the task it holds. -/
def LoopPc.Knows (sh : Shared σ R) : LoopPc → Prop
  | .cancelSend _ t => sh.isCancelled t = true
  | _ => True

/-- What a wrapper knows of its task. -/
def WrapperPc.Knows (task : Task R) : WrapperPc R → Prop
  | .resolved (some v) => task.returned = some v
  | .resolved none => task.hasPanicked = true
  | .outcome r => task.Fits r
  | .unwind true => task.Lost
  | _ => True

/-- What a process knows of the task it holds. -/
def Proc.Knows (sh : Shared σ R) : Proc R → Prop
  | .loop d => d.pc.Knows sh
  | .wrapper w => w.pc.Knows (sh.tasks w.task)
  | _ => True

theorem WrapperPc.Knows.evolve {a b : Task R} {pc : WrapperPc R} (h : pc.Knows a)
    (hab : a.Evolves b) (hpolls : b.polls = a.polls) : pc.Knows b := by
  unfold WrapperPc.Knows at h ⊢
  split
  · exact (Task.returned_eq hab.future hpolls).trans h
  · exact (Task.hasPanicked_eq hab.future hpolls).trans h
  · exact Task.Fits.evolve h hab hpolls
  · exact Task.Lost.evolve h hab hpolls
  · exact True.intro

/-- A process keeps what it knows while the future of its task is not polled. -/
theorem Proc.Knows.evolve {p : Proc R} (h : p.Knows sh)
    (hevolves : ∀ t, p.carries = some t → (sh.tasks t).Evolves (sh'.tasks t))
    (hpolls : ∀ t, p.carries = some t → (sh'.tasks t).polls = (sh.tasks t).polls) :
    p.Knows sh' := by
  cases p with
  | loop d =>
    obtain ⟨_, pc, _⟩ := d
    cases pc with
    | cancelSend permit t => exact (hevolves t rfl).cancelled h
    | _ => exact True.intro
  | wrapper w => exact WrapperPc.Knows.evolve h (hevolves _ rfl) (hpolls _ rfl)
  | _ => exact True.intro

/-- No wrapper was ever spawned for the task. -/
def Unstarted (s : Pool σ R) (t : Nat) : Prop :=
  ∀ pid (w : Wrapper R), s.At pid (.wrapper w) → w.task ≠ t

/-- The results and the settlements of a state are right. -/
structure Verdicts (s : Pool σ R) : Prop where
  used : ∀ t r, t < s.shared.nextTaskId → (s.shared.tasks t).sender = .used r →
    (s.shared.tasks t).Fits r
  dropped : ∀ t, t < s.shared.nextTaskId → (s.shared.tasks t).sender = .dropped →
    Unstarted s t ∨ (s.shared.tasks t).Lost
  unpolled : ∀ t, t < s.shared.nextTaskId → Unstarted s t → (s.shared.tasks t).polls = 0
  knows : ∀ pid p, s.At pid p → p.Knows s.shared

variable [Semaphore σ]

theorem SubmitStep.polls_kept {kind : PoolKind} {c c' : SubmitCall R} (ht : t < sh.nextTaskId)
    (h : SubmitStep kind pid sh c sh' c' sp) : (sh'.tasks t).polls = (sh.tasks t).polls := by
  cases h with
  | create | createScan => simp [ht.ne]
  | reject | selectCancelled | abandon | pushFails => 
    exact Shared.withdraw_kept Task.polls Task.dropSender_polls (fun _ => rfl) _ _
  | push | spawn => exact Shared.modifyTask_kept Task.polls fun _ => rfl
  | _ => rfl

theorem LoopStep.polls_kept {d d' : DispatcherLoop} (h : LoopStep cfg pid sh d sh' d' sp) :
    (sh'.tasks t).polls = (sh.tasks t).polls := by
  cases h with
  | recvDiscard | guardStop | exitHand | drain =>
    exact Shared.modifyTask_kept Task.polls Task.dropSender_polls
  | cancelSend => exact Shared.modifyTask_kept Task.polls (Task.send_polls _)
  | _ => rfl

/-- A wrapper polls no future but its own, and that only before it is settled. -/
theorem WrapperStep.polls_kept {w w' : Wrapper R} (ht : w.pc = .poll → w.task ≠ t)
    (h : WrapperStep cfg sh w sh' w') : (sh'.tasks t).polls = (sh.tasks t).polls := by
  cases h with
  | pollPending hpc | pollReady hpc | pollPanicked hpc =>
    simp [(ht hpc).symm]
  | send | sendUnwind => exact Shared.modifyTask_kept Task.polls (Task.send_polls _)
  | unwind => exact Shared.modifyTask_kept Task.polls Task.dropSender_polls
  | finish => exact Shared.modifyTask_kept Task.polls fun _ => rfl
  | _ => rfl

/-- A step polls the future of a task only in its own wrapper, at `poll`. -/
theorem Proc.Step.polls_kept {p p' : Proc R} (h : Proc.Step cfg pid sh p sh' p' sp)
    (ht : t < sh.nextTaskId) (hp : ∀ w, p = .wrapper w → w.pc = .poll → w.task ≠ t) :
    (sh'.tasks t).polls = (sh.tasks t).polls := by
  cases h with
  | submit hstep => exact hstep.polls_kept ht
  | loop hstep => exact hstep.polls_kept
  | wrapper hstep => exact hstep.polls_kept (hp _ rfl)
  | bystander _ _ hstep => exact (hstep.1.tasks t).polls

/-! ## The invariant -/

theorem LoopStep.knows {d d' : DispatcherLoop} (h : LoopStep cfg pid sh d sh' d' sp) :
    d'.pc.Knows sh' ∧ ∀ q, sp = some q → q.Knows sh' := by
  cases h with
  | precheckCancelled hpc hcancelled => exact ⟨hcancelled, fun _ h => nomatch h⟩
  | spawn hpc =>
    refine ⟨True.intro, ?_⟩
    rintro _ ⟨⟩
    exact True.intro
  | _ => exact ⟨True.intro, fun _ h => nomatch h⟩

theorem SubmitStep.knows {kind : PoolKind} {c c' : SubmitCall R}
    (h : SubmitStep kind pid sh c sh' c' sp) : ∀ q, sp = some q → q.Knows sh' := by
  cases h with
  | spawn hkind hpc =>
    rintro _ ⟨⟩
    exact True.intro
  | _ => exact fun _ h => nomatch h

theorem WrapperStep.knows {w w' : Wrapper R} (hw : w.pc.Knows (sh.tasks w.task))
    (h : WrapperStep cfg sh w sh' w') : w'.pc.Knows (sh'.tasks w'.task) := by
  cases h with
  | pollReady hpc hpoll =>
    simp [WrapperPc.Knows, Task.countPoll, Task.returned, hpoll]
  | pollPanicked hpc hpoll =>
    simp [WrapperPc.Knows, Task.countPoll, Task.hasPanicked, hpoll]
  | cancelled hpc hcancelled => exact hcancelled
  | discard hpc hcancelled => exact hcancelled
  | pass hpc => simpa [WrapperPc.Knows, Task.Fits, hpc] using hw
  | passPanic hpc => simpa [WrapperPc.Knows, Task.Fits, hpc] using hw
  | @discardUnwind value hpc hcancelled hdrop =>
    rw [hpc] at hw
    cases value with
    | some v =>
      have hreturned : (sh.tasks w.task).returned = some v := hw
      have hflag : sh.isCancelled w.task = true := by simpa using hcancelled
      exact .inl ⟨hflag, hdrop, by simp [hreturned]⟩
    | none => exact .inr ⟨hdrop, hw⟩
  | _ => exact True.intro

/-- Only the process that owns a task spawns its wrapper. -/
theorem Proc.Step.spawned {p p' : Proc R} {w : Wrapper R}
    (h : Proc.Step cfg pid sh p sh' p' (some (.wrapper w))) :
    p.owns = some w.task ∧ w.pc = .poll := by
  cases h with
  | submit hstep =>
    cases hstep with
    | spawn hkind hpc => exact ⟨by simp [Proc.owns, SubmitPc.task, hpc], rfl⟩
  | loop hstep =>
    cases hstep with
    | spawn hpc => exact ⟨by simp [Proc.owns, LoopPc.task, hpc], rfl⟩
  | bystander _ _ hstep => exact (hstep.2 _ rfl).elim

/-- What a step starts carries a task only as its wrapper. -/
theorem Proc.Step.started_carries {p p' q : Proc R}
    (h : Proc.Step cfg pid sh p sh' p' (some q)) (hc : q.carries = some t) :
    ∃ w, q = .wrapper w ∧ w.task = t := by
  cases q with
  | wrapper w => exact ⟨w, rfl, Option.some.inj hc⟩
  | submit | loop =>
    cases h with
    | submit hstep => cases hstep
    | loop hstep => cases hstep
    | bystander _ _ hstep => exact (hstep.2 _ rfl).elim
  | _ => cases hc

/-- A wrapper was a wrapper of the same task before. -/
theorem Proc.Step.wrapper_kept {p : Proc R} {w' : Wrapper R}
    (h : Proc.Step cfg pid sh p sh' (.wrapper w') sp) :
    ∃ w, p = .wrapper w ∧ w'.task = w.task := by
  cases h with
  | wrapper hstep => exact ⟨_, rfl, hstep.task_kept⟩
  | bystander _ hby' => exact hby'.elim

/-- How a step settles task `t` with a result. -/
inductive Proc.Sends (t : Nat) (r : Except PoolError R) : Proc R → Prop
  | wrapper {w} (htask : w.task = t) (hpc : w.pc = .outcome r) : Sends t r (.wrapper w)
  | cancelled {d permit} (hpc : d.pc = .cancelSend permit t) (hr : r = .error .taskCancelled) :
      Sends t r (.loop d)

/-- How a step settles task `t` without one: it is dropped by the process that
holds it or out of a lane, or its wrapper unwinds. -/
inductive Proc.Drops (sh : Shared σ R) (t : Nat) : Proc R → Prop
  | held {p} (hc : p.carries = some t) (hp : ∀ w, p ≠ .wrapper w) : Drops sh t p
  | queued {d} (hq : 0 < sh.queued t) : Drops sh t (.loop d)
  | unwind {w} (htask : w.task = t) (hpc : w.pc = .unwind true) : Drops sh t (.wrapper w)

omit [Semaphore σ] in
theorem Shared.sender_dropSender (sh : Shared σ R) (u : Nat) :
    ((sh.modifyTask u Task.dropSender).tasks t).sender = (sh.tasks t).sender ∨
      (t = u ∧ (sh.tasks t).sender = .live ∧
        ((sh.modifyTask u Task.dropSender).tasks t).sender = .dropped) := by
  by_cases ht : t = u
  · cases hs : (sh.tasks t).sender <;> simp [← ht, Task.dropSender, hs]
  · simp [ht]

omit [Semaphore σ] in
theorem Shared.sender_withdraw (sh : Shared σ R) (c : SubmitCall R) (u : Nat) :
    ((sh.withdraw c u).tasks t).sender = (sh.tasks t).sender ∨
      (t = u ∧ (sh.tasks t).sender = .live ∧ ((sh.withdraw c u).tasks t).sender = .dropped) := by
  have hsame : ((sh.withdraw c u).tasks t).sender =
      ((sh.modifyTask u Task.dropSender).tasks t).sender := by
    by_cases ht : t = u <;> simp [ht, Task.dropReceiver]
  rw [hsame]
  exact sh.sender_dropSender u

omit [Semaphore σ] in
theorem Shared.sender_send (sh : Shared σ R) (u : Nat) (r : Except PoolError R) :
    ((sh.modifyTask u (Task.send · r)).tasks t).sender = (sh.tasks t).sender ∨
      (t = u ∧ (sh.tasks t).sender = .live ∧
        ((sh.modifyTask u (Task.send · r)).tasks t).sender = .used r) := by
  by_cases ht : t = u
  · cases hs : (sh.tasks t).sender <;> simp [← ht, Task.send, hs]
  · simp [ht]

/-- What a step does to the result sender of a task: nothing, one send, or one
drop. -/
inductive Settles (sh sh' : Shared σ R) (t : Nat) (p : Proc R) : Prop
  | kept (h : (sh'.tasks t).sender = (sh.tasks t).sender)
  | sent {r} (hp : p.Sends t r) (hlive : (sh.tasks t).sender = .live)
      (hused : (sh'.tasks t).sender = .used r)
  | dropped (hp : p.Drops sh t) (hlive : (sh.tasks t).sender = .live)
      (hdropped : (sh'.tasks t).sender = .dropped)

theorem SubmitStep.settles {kind : PoolKind} {c c' : SubmitCall R} (ht : t < sh.nextTaskId)
    (h : SubmitStep kind pid sh c sh' c' sp) : Settles sh sh' t (.submit c) := by
  have hdrop {u : Nat} {sh₁ : Shared σ R} (htask : c.pc.task = some u)
      (htasks : sh₁.tasks = sh.tasks) : Settles sh (sh₁.withdraw c u) t (.submit c) := by
    rcases Shared.sender_withdraw (t := t) sh₁ c u with hkept | ⟨rfl, hlive, hdropped⟩
    · exact .kept (hkept.trans (by rw [htasks]))
    · exact .dropped (.held htask nofun) (by rwa [htasks] at hlive) hdropped
  cases h with
  | create | createScan => exact .kept (by simp [ht.ne])
  | reject hpc | abandon hpc =>
    exact hdrop (by rcases hpc with hpc | hpc <;> simp [SubmitPc.task, hpc]) rfl
  | selectCancelled hpc => exact hdrop (by simp [SubmitPc.task, hpc]) rfl
  | pushFails hpc => exact hdrop (by simp [SubmitPc.task, hpc]) rfl
  | @push u | @spawn u =>
    refine .kept ?_
    by_cases hu : t = u <;> simp [hu, Task.accept]
  | _ => exact .kept rfl

theorem LoopStep.settles {d d' : DispatcherLoop} (h : LoopStep cfg pid sh d sh' d' sp) :
    Settles sh sh' t (.loop d) := by
  cases h with
  | @recvDiscard u items receiver done hkind hpc hlane | @drain u items receiver done hpc hlane =>
    rcases Shared.sender_dropSender (t := t) (sh.setLane d.lane ⟨items, receiver, done⟩).releaseSlot u
      with hkept | ⟨rfl, hlive, hdropped⟩
    · exact .kept hkept
    · have htake := Shared.queued_take (t := t) hlane
      rw [names_self] at htake
      exact .dropped (.queued (by omega)) hlive hdropped
  | @guardStop u hkind hpc | @exitHand u hpc =>
    rcases Shared.sender_dropSender (t := t) sh u with hkept | ⟨rfl, hlive, hdropped⟩
    · exact .kept hkept
    · exact .dropped (.held (by simp [Proc.carries, LoopPc.task, hpc]) nofun) hlive hdropped
  | @cancelSend permit u hpc =>
    rcases Shared.sender_send (t := t) sh u (.error .taskCancelled) with hkept | ⟨rfl, hlive, hused⟩
    · exact .kept hkept
    · exact .sent (.cancelled hpc rfl) hlive hused
  | _ => exact .kept rfl

theorem WrapperStep.settles {w w' : Wrapper R} (h : WrapperStep cfg sh w sh' w') :
    Settles sh sh' t (.wrapper w) := by
  cases h with
  | @send result hpc | @sendUnwind result hpc =>
    rcases Shared.sender_send (t := t) sh w.task result with hkept | ⟨htask, hlive, hused⟩
    · exact .kept hkept
    · exact .sent (.wrapper htask.symm hpc) hlive hused
  | unwind hpc =>
    rcases Shared.sender_dropSender (t := t) sh.releasePermit w.task with
      hkept | ⟨htask, hlive, hdropped⟩
    · exact .kept hkept
    · exact .dropped (.unwind htask.symm hpc) hlive hdropped
  | pollPending | pollReady | pollPanicked =>
    refine .kept ?_
    by_cases hu : t = w.task <;> simp [hu, Task.countPoll]
  | finish =>
    refine .kept ?_
    by_cases hu : t = w.task <;> simp [hu]
  | _ => exact .kept rfl

theorem Proc.Step.settles {p p' : Proc R} (h : Proc.Step cfg pid sh p sh' p' sp)
    (ht : t < sh.nextTaskId) : Settles sh sh' t p := by
  cases h with
  | submit hstep => exact hstep.settles ht
  | loop hstep => exact hstep.settles
  | wrapper hstep => exact hstep.settles
  | bystander _ _ hstep => exact .kept (hstep.1.tasks t).sender

/-- A step that spawns a wrapper settles nothing. -/
theorem Proc.Step.spawn_sender {p p' : Proc R} {w : Wrapper R}
    (h : Proc.Step cfg pid sh p sh' p' (some (.wrapper w))) :
    (sh'.tasks t).sender = (sh.tasks t).sender := by
  cases h with
  | submit hstep =>
    cases hstep with
    | @spawn u => by_cases hu : t = u <;> simp [hu, Task.accept]
  | loop hstep =>
    cases hstep with
    | spawn => rfl
  | bystander _ _ hstep => exact (hstep.1.tasks t).sender

/-- A step creates at most one task, with a live sender and an unpolled future. -/
theorem Proc.Step.created_new {p p' : Proc R} (h : Proc.Step cfg pid sh p sh' p' sp)
    (hold : sh.nextTaskId ≤ t) (hnew : t < sh'.nextTaskId) :
    ∃ labels future, sh'.tasks t = Task.new (.ofNat t) labels future := by
  cases h with
  | @submit c _ _ _ hstep =>
    cases hstep with
    | create | createScan =>
      obtain rfl : t = sh.nextTaskId := by
        simp only [Shared.createTask_nextTaskId] at hnew
        omega
      exact ⟨c.labels, c.future, by simp⟩
    | _ => exact absurd (hold.trans_lt hnew) (lt_irrefl _)
  | loop hstep =>
    cases hstep with
    | _ => exact absurd (hold.trans_lt hnew) (lt_irrefl _)
  | wrapper hstep =>
    cases hstep with
    | _ => exact absurd (hold.trans_lt hnew) (lt_irrefl _)
  | bystander _ _ hstep =>
    rw [hstep.1.nextTaskId] at hnew
    exact absurd (hold.trans_lt hnew) (lt_irrefl _)

section Invariant

variable {s : Pool σ R} {p p' : Proc R}

theorem Unstarted.of_update (hp : s.At pid p) (hstep : Proc.Step cfg pid s.shared p sh p' sp)
    (h : Unstarted (s.update pid sh p' sp) t) : Unstarted s t := by
  intro qid w hw
  by_cases hne : qid = pid
  · subst hne
    obtain rfl := Option.some.inj (hw.symm.trans hp)
    cases hstep with
    | @wrapper _ _ w' hstep =>
      rw [← hstep.task_kept]
      exact h qid w' (Threads.update_self hp)
    | bystander hby => exact hby.elim
  · exact h qid w (Threads.update_other hne hw)

theorem Unstarted.update (h : Unstarted s t) (hp : s.At pid p)
    (hstep : Proc.Step cfg pid s.shared p sh p' sp)
    (hsp : ∀ w, sp = some (.wrapper w) → w.task ≠ t) : Unstarted (s.update pid sh p' sp) t := by
  intro qid w hw
  rcases Threads.update_getElem? hp hw with ⟨rfl, rfl⟩ | ⟨_, hold⟩ | ⟨_, hnew⟩
  · obtain ⟨w₀, rfl, htask⟩ := hstep.wrapper_kept
    rw [htask]
    exact h _ w₀ hp
  · exact h qid w hold
  · exact hsp w hnew

/-- The process that holds a task and is no wrapper knows that there is none. -/
theorem unstarted_of_carries {ok : Pool σ R → PoolEvent R → Prop}
    (h : (poolMachine σ R cfg).Reachable ok s) (hp : s.At pid p) (hc : p.carries = some t)
    (hno : ∀ w, p ≠ .wrapper w) : Unstarted s t := by
  rintro qid w hw rfl
  obtain rfl := carrier_unique h hp hw hc rfl
  exact hno w (Option.some.inj (hp.symm.trans hw))

theorem unstarted_of_queued {ok : Pool σ R → PoolEvent R → Prop}
    (h : (poolMachine σ R cfg).Reachable ok s) (hq : 0 < s.shared.queued t) : Unstarted s t := by
  rintro qid w hw rfl
  exact not_carried_of_queued h hq hw rfl

section Update

variable {ok : Pool σ R → PoolEvent R → Prop} (hreach : (poolMachine σ R cfg).Reachable ok s)
  (hs : Verdicts s) (hp : s.At pid p) (hstep : Proc.Step cfg pid s.shared p sh p' sp)

include hreach hp hstep

/-- A task whose sender has been used or dropped is not polled any more. -/
theorem polls_kept_of_settled (ht : t < s.shared.nextTaskId)
    (hsettled : (s.shared.tasks t).sender ≠ .live) :
    (sh.tasks t).polls = (s.shared.tasks t).polls := by
  refine hstep.polls_kept ht fun w hw hpc htask => hsettled ?_
  exact live_of_owns hreach hp (by simp [hw, Proc.owns, WrapperPc.unsettled, hpc, htask])

/-- A task that is settled, or is being settled, does not start. -/
theorem not_spawned_of_settled (hsettled : (s.shared.tasks t).sender ≠ .live ∨
    (sh.tasks t).sender ≠ (s.shared.tasks t).sender) :
    ∀ w, sp = some (.wrapper w) → w.task ≠ t := by
  rintro w rfl rfl
  rcases hsettled with hsettled | hchanged
  · exact hsettled (live_of_owns hreach hp hstep.spawned.1)
  · exact hchanged hstep.spawn_sender

include hs

theorem Verdicts.used_update {r : Except PoolError R} (ht : t < sh.nextTaskId)
    (hused : (sh.tasks t).sender = .used r) : (sh.tasks t).Fits r := by
  have hevolves := Shared.Evolves.proc hstep
  by_cases hold : t < s.shared.nextTaskId
  · cases hstep.settles hold with
    | kept hkept =>
      have hbefore : (s.shared.tasks t).sender = .used r := hkept ▸ hused
      refine (hs.used t r hold hbefore).evolve (hevolves.tasks t hold) ?_
      exact polls_kept_of_settled hreach hp hstep hold (by simp [hbefore])
    | @sent r₁ hsends hlive hsent =>
      obtain rfl : r₁ = r := ResultSender.used.inj (hsent.symm.trans hused)
      have hfits : (s.shared.tasks t).Fits r₁ := by
        have hknows := hs.knows pid p hp
        cases hsends with
        | wrapper htask hpc => simpa [Proc.Knows, WrapperPc.Knows, hpc, htask] using hknows
        | cancelled hpc hr =>
          subst hr
          have hcancelled : s.shared.isCancelled t = true := by
            simpa [Proc.Knows, LoopPc.Knows, hpc] using hknows
          exact hcancelled
      refine hfits.evolve (hevolves.tasks t hold) ?_
      refine hstep.polls_kept hold fun w hw hpc htask => ?_
      subst hw
      cases hsends with
      | wrapper _ hpc' => simp [hpc] at hpc'
    | dropped _ _ hdropped =>
      rw [hdropped] at hused
      cases hused
  · obtain ⟨labels, future, htask⟩ := hstep.created_new (by omega) ht
    simp [htask] at hused

theorem Verdicts.dropped_update (ht : t < sh.nextTaskId)
    (hdropped : (sh.tasks t).sender = .dropped) :
    Unstarted (s.update pid sh p' sp) t ∨ (sh.tasks t).Lost := by
  have hevolves := Shared.Evolves.proc hstep
  by_cases hold : t < s.shared.nextTaskId
  · cases hstep.settles hold with
    | kept hkept =>
      have hbefore : (s.shared.tasks t).sender = .dropped := hkept ▸ hdropped
      rcases hs.dropped t hold hbefore with hun | hlost
      · refine .inl (hun.update hp hstep ?_)
        exact not_spawned_of_settled hreach hp hstep (.inl (by simp [hbefore]))
      · refine .inr (hlost.evolve (hevolves.tasks t hold) ?_)
        exact polls_kept_of_settled hreach hp hstep hold (by simp [hbefore])
    | sent _ _ hused =>
      rw [hused] at hdropped
      cases hdropped
    | dropped hdrops hlive hdropped' =>
      have hsp := not_spawned_of_settled (t := t) hreach hp hstep (.inr (by simp [hlive, hdropped']))
      cases hdrops with
      | held hc hno => exact .inl ((unstarted_of_carries hreach hp hc hno).update hp hstep hsp)
      | queued hq => exact .inl ((unstarted_of_queued hreach hq).update hp hstep hsp)
      | unwind htask hpc =>
        have hknows := hs.knows pid _ hp
        have hlost : (s.shared.tasks t).Lost := by
          simpa [Proc.Knows, WrapperPc.Knows, hpc, htask] using hknows
        refine .inr (hlost.evolve (hevolves.tasks t hold) (hstep.polls_kept hold ?_))
        rintro _ ⟨⟩ hpoll
        simp [hpc] at hpoll
  · obtain ⟨labels, future, htask⟩ := hstep.created_new (by omega) ht
    simp [htask] at hdropped

theorem Verdicts.knows_update {qid : Nat} {q : Proc R} (hq : (s.update pid sh p' sp).At qid q) :
    q.Knows sh := by
  rcases Threads.update_getElem? hp hq with ⟨rfl, rfl⟩ | ⟨hne, hother⟩ | ⟨_, hnew⟩
  · cases hstep with
    | submit => exact True.intro
    | loop hstep => exact hstep.knows.1
    | wrapper hstep => exact hstep.knows (hs.knows _ _ hp)
    | bystander _ hby' =>
      cases q with
      | submit | loop | wrapper => exact hby'.elim
      | _ => exact True.intro
  · refine (hs.knows qid q hother).evolve (fun t hc => ?_) fun t hc => ?_
    · exact (Shared.Evolves.proc hstep).tasks t (lt_of_carries hreach hother hc)
    · refine hstep.polls_kept (lt_of_carries hreach hother hc) ?_
      rintro w rfl _ rfl
      exact hne (carrier_unique hreach hother hp hc rfl)
  · cases hstep with
    | submit hstep => exact hstep.knows q hnew
    | loop hstep => exact hstep.knows.2 q hnew
    | wrapper => cases hnew
    | bystander _ _ hstep =>
      have hby := hstep.2 q hnew
      cases q with
      | submit | loop | wrapper => exact hby.elim
      | _ => exact True.intro

theorem Verdicts.update : Verdicts (s.update pid sh p' sp) := by
  refine ⟨fun t r ht hused => hs.used_update hreach hp hstep ht hused,
    fun t ht hdropped => hs.dropped_update hreach hp hstep ht hdropped, fun t ht hun => ?_,
    fun qid q hq => hs.knows_update hreach hp hstep hq⟩
  by_cases hold : t < s.shared.nextTaskId
  · have hbefore := hun.of_update hp hstep
    rw [Threads.update_shared, hstep.polls_kept hold]
    · exact hs.unpolled t hold hbefore
    · rintro w rfl _ htask
      exact hbefore pid w hp htask
  · obtain ⟨labels, future, htask⟩ := hstep.created_new (by omega) ht
    simp [htask, Task.new]

end Update

omit [Semaphore σ] in
theorem Verdicts.spawn (hs : Verdicts s) (hquiet : s.shared.Quiet sh)
    (hcarried : ∀ pid p t, s.At pid p → p.carries = some t → t < s.shared.nextTaskId)
    (hfresh : ∀ q, sp = some q → q.Fresh) : Verdicts (s.spawn sh sp) := by
  have hevolves := Shared.Evolves.quiet hquiet
  have hpolls (t : Nat) : (sh.tasks t).polls = (s.shared.tasks t).polls := (hquiet.tasks t).polls
  have hsender (t : Nat) : (sh.tasks t).sender = (s.shared.tasks t).sender :=
    (hquiet.tasks t).sender
  have hun {t : Nat} : Unstarted (s.spawn sh sp) t ↔ Unstarted s t := by
    refine ⟨fun h qid w hw => h qid w (Threads.spawn_other hw), fun h qid w hw => ?_⟩
    rcases Threads.spawn_getElem? hw with hold | ⟨_, hnew⟩
    · exact h qid w hold
    · cases hfresh _ hnew with
      | bystander hby => exact hby.elim
  refine ⟨fun t r ht hused => ?_, fun t ht hdropped => ?_, fun t ht hunstarted => ?_,
    fun qid q hq => ?_⟩
  all_goals simp only [Threads.spawn_shared, hquiet.nextTaskId] at *
  · rw [hsender] at hused
    exact (hs.used t r ht hused).evolve (hevolves.tasks t ht) (hpolls t)
  · rw [hsender] at hdropped
    rw [hun]
    exact (hs.dropped t ht hdropped).imp id fun hlost =>
      hlost.evolve (hevolves.tasks t ht) (hpolls t)
  · rw [hpolls]
    exact hs.unpolled t ht (hun.mp hunstarted)
  · rcases Threads.spawn_getElem? hq with hold | ⟨_, hnew⟩
    · exact (hs.knows qid q hold).evolve
        (fun t hc => hevolves.tasks t (hcarried qid q t hold hc)) fun t _ => hpolls t
    · cases hfresh q hnew with
      | bystander hby =>
        cases q with
        | submit | loop | wrapper => exact hby.elim
        | _ => exact True.intro
      | submit => exact True.intro

theorem verdicts {ok : Pool σ R → PoolEvent R → Prop}
    (h : (poolMachine σ R cfg).Reachable ok s) : Verdicts s := by
  refine Pool.induct .refl ?_ ?_ h ?_
  · intro s b pid p sh p' sp hreach hs _ hp hstep
    exact hs.update hreach hp hstep
  · intro s c sh sp hreach hs _ hquiet hfresh
    exact hs.spawn hquiet (fun _ _ _ hp hc => lt_of_carries hreach hp hc) hfresh
  · refine ⟨fun t _ ht => absurd ht t.not_lt_zero, fun t ht => absurd ht t.not_lt_zero,
      fun t ht => absurd ht t.not_lt_zero, fun pid p hp => ?_⟩
    obtain ⟨-, rfl⟩ := Pool.init_loop hp
    exact True.intro

end Invariant

end FuturesOrchestra
