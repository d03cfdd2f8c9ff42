import FuturesOrchestra.Proofs.Senders
import FuturesOrchestra.Proofs.Verdict

/-!
# Completion messages

What is in the completion queue. `Reported` says that every message was sent for a
task that has got a result, with the status of that result; `task_reported` says
that a task is reported at most once, by the balance of the message and the process
that could still send it.
-/

namespace FuturesOrchestra

open Interleaving

variable {σ R : Type} {cfg : PoolConfig} {pid t : Nat} {sh sh' : Shared σ R}
  {sp : Option (Proc R)} {p p' : Proc R}

/-- The next step of the process sends `msg`. -/
inductive Proc.Reports (cfg : PoolConfig) (msg : InternalCompletionMessage) : Proc R → Prop
  | wrapper {w status} (hpc : w.pc = .settled status) (hsender : w.sender = true)
      (hmsg : msg = ⟨cfg.poolName, w.task, status⟩) : Reports cfg msg (.wrapper w)
  | cancelled {d permit t} (hpc : d.pc = .cancelNotify permit t)
      (hmsg : msg = ⟨cfg.poolName, t, .cancelled⟩) : Reports cfg msg (.loop d)

theorem Proc.Reports.senders {msg : InternalCompletionMessage} (h : p.Reports cfg msg) :
    p.senders = 1 := by
  cases h with
  | wrapper _ hsender => simp [Proc.senders, hsender]
  | cancelled hpc => simp [Proc.senders, LoopPc.senders, hpc]

/-- What a step does to the messages: nothing, or it sends one while the worker
listens. -/
inductive QueueStep (cfg : PoolConfig) (sh sh' : Shared σ R) (p : Proc R) : Prop
  | kept (hsent : sh'.notifier.sent = sh.notifier.sent)
  | sent {msg} (hp : p.Reports cfg msg) (hopen : sh.notifier.workerDone = false)
      (hsent : sh'.notifier.sent = sh.notifier.sent ++ [msg])

theorem CompletionNotifier.sent_lookup (n : CompletionNotifier) : n.lookup.1.sent = n.sent := by
  rw [lookup_eq]

@[simp] theorem CompletionNotifier.sent_close (n : CompletionNotifier) : n.close.sent = n.sent := by
  unfold close
  split <;> rfl

theorem QueueStep.report {msg : InternalCompletionMessage} (hp : p.Reports cfg msg)
    (hnotifier : sh'.notifier = sh.notifier.send msg) : QueueStep cfg sh sh' p := by
  cases hdone : sh.notifier.workerDone with
  | true => exact .kept (by simp [hnotifier, CompletionNotifier.send, hdone])
  | false => exact .sent hp hdone (by simp [hnotifier, CompletionNotifier.send, hdone])

variable [Semaphore σ]

theorem Proc.queue_of_run {b : Signal} (h : Proc.run cfg b pid sh p = some (sh', p', sp)) :
    QueueStep cfg sh sh' p := by
  rcases Proc.split_of_run h with ⟨c, c', rfl, rfl, hstep⟩ | ⟨d, d', rfl, rfl, hstep⟩ |
    ⟨w, w', rfl, rfl, hstep, rfl⟩ | hstep
  · cases hstep with
    | lookup => exact .kept (CompletionNotifier.sent_lookup _)
    | _ => exact .kept rfl
  · cases hstep with
    | lookup | cancelLookup | cancelUnheard => exact .kept (CompletionNotifier.sent_lookup _)
    | cancelNotify hpc => exact .report (.cancelled hpc rfl) rfl
    | exitLast => exact .kept (CompletionNotifier.sent_close _)
    | _ => exact .kept rfl
  · cases hstep with
    | notify hpc hsender => exact .report (.wrapper hpc hsender rfl) rfl
    | unwind | unwindSent =>
      refine .kept ?_
      rw [Shared.hangUp_notifier]
      split <;> rfl
    | _ => exact .kept rfl
  · cases hstep with
    | shutdown hstep =>
      cases hstep with
      | closeSink => exact .kept (CompletionNotifier.sent_close _)
      | dropSelf _ hdrop =>
        cases hdrop with
        | closeSink | releaseLast => exact .kept (CompletionNotifier.sent_close _)
        | _ => exact .kept rfl
      | _ => exact .kept rfl
    | drop _ hdrop =>
      cases hdrop with
      | closeSink | releaseLast => exact .kept (CompletionNotifier.sent_close _)
      | _ => exact .kept rfl
    | labelCancel hstep => cases hstep <;> exact .kept rfl
    | addHandler hstep => cases hstep <;> exact .kept rfl
    | notifier hstep => cases hstep <;> exact .kept rfl

/-! ## Every message is true -/

/-- The result of task `t` was sent and has that status. -/
def Shared.outcome (sh : Shared σ R) (t : Nat) (status : TaskCompletionStatus) : Prop :=
  ∃ r, (sh.tasks t).sender = .used r ∧ status = .ofResult r

def LoopPc.Attests (sh : Shared σ R) : LoopPc → Prop
  | .cancelLookup _ t | .cancelNotify _ t => sh.outcome t .cancelled
  | _ => True

def WrapperPc.Attests (sh : Shared σ R) (t : Nat) : WrapperPc R → Prop
  | .settled status => sh.outcome t status
  | _ => True

/-- What a process knows of the task it is about to report. -/
def Proc.Attests (sh : Shared σ R) : Proc R → Prop
  | .loop d => d.pc.Attests sh
  | .wrapper w => w.pc.Attests sh w.task
  | _ => True

omit [Semaphore σ] in
theorem Proc.Attests.evolve (h : p.Attests sh)
    (hkept : ∀ t status, sh.outcome t status → sh'.outcome t status) : p.Attests sh' := by
  cases p with
  | loop d =>
    obtain ⟨_, pc, _⟩ := d
    cases pc with
    | cancelLookup | cancelNotify => exact hkept _ _ h
    | _ => exact True.intro
  | wrapper w =>
    obtain ⟨_, _, _, pc⟩ := w
    cases pc with
    | settled => exact hkept _ _ h
    | _ => exact True.intro
  | _ => exact True.intro

omit [Semaphore σ] in
theorem Shared.outcome_send {u : Nat} {r : Except PoolError R}
    (hlive : (sh.tasks u).sender = .live) :
    (sh.modifyTask u (Task.send · r)).outcome u (.ofResult r) :=
  ⟨r, by simp [Task.send, hlive], rfl⟩

omit [Semaphore σ] in
theorem Shared.outcome_eq {status : TaskCompletionStatus}
    (hsender : (sh'.tasks t).sender = (sh.tasks t).sender) (h : sh.outcome t status) :
    sh'.outcome t status := by
  obtain ⟨r, hused, hstatus⟩ := h
  exact ⟨r, hsender.trans hused, hstatus⟩

/-- The process that runs knows of the task it settles that it has settled it. -/
theorem LoopStep.attests {d d' : DispatcherLoop}
    (hlive : ∀ t, d.pc.task = some t → (sh.tasks t).sender = .live)
    (hd : d.pc.Attests sh) (h : LoopStep cfg pid sh d sh' d' sp) :
    d'.pc.Attests sh' ∧ ∀ q, sp = some q → q.Attests sh' := by
  cases h with
  | cancelSend hpc =>
    exact ⟨Shared.outcome_send (hlive _ (by simp [LoopPc.task, hpc])), fun _ h => nomatch h⟩
  | cancelLookup hpc =>
    rw [hpc] at hd
    exact ⟨hd, fun _ h => nomatch h⟩
  | spawn =>
    refine ⟨True.intro, ?_⟩
    rintro _ ⟨⟩
    exact True.intro
  | _ => exact ⟨True.intro, fun _ h => nomatch h⟩

theorem WrapperStep.attests {w w' : Wrapper R}
    (hlive : w.pc.unsettled = true → (sh.tasks w.task).sender = .live)
    (h : WrapperStep cfg sh w sh' w') : w'.pc.Attests sh' w'.task := by
  cases h with
  | send hpc => exact Shared.outcome_send (hlive (by simp [WrapperPc.unsettled, hpc]))
  | _ => exact True.intro

theorem SubmitStep.attests {kind : PoolKind} {c c' : SubmitCall R}
    (h : SubmitStep kind pid sh c sh' c' sp) : ∀ q, sp = some q → q.Attests sh' := by
  cases h with
  | spawn =>
    rintro _ ⟨⟩
    exact True.intro
  | _ => exact fun _ h => nomatch h

/-- Every message was sent for a task that has got its result, and says which. -/
structure Reported (cfg : PoolConfig) (s : Pool σ R) : Prop where
  attests : ∀ pid p, s.At pid p → p.Attests s.shared
  sent : ∀ msg ∈ s.shared.notifier.sent,
    msg.poolName = cfg.poolName ∧ s.shared.outcome msg.core msg.status

theorem lt_of_outcome {ok : Pool σ R → PoolEvent R → Prop} {s : Pool σ R}
    {status : TaskCompletionStatus} (h : (poolMachine σ R cfg).Reachable ok s)
    (ho : s.shared.outcome t status) : t < s.shared.nextTaskId := by
  obtain ⟨r, hused, -⟩ := ho
  have hplaced := task_placed h t
  have hsettled : s.shared.settled t = 1 := by simp [Shared.settled, hused, ResultSender.settled]
  by_contra hlt
  have hnone : s.shared.created t = 0 := by simp [Shared.created, hlt]
  omega

/-- A result that was sent stays sent. -/
theorem outcome_kept {ok : Pool σ R → PoolEvent R → Prop} {s : Pool σ R}
    {status : TaskCompletionStatus} (h : (poolMachine σ R cfg).Reachable ok s)
    (hevolves : s.shared.Evolves sh') (ho : s.shared.outcome t status) : sh'.outcome t status := by
  refine Shared.outcome_eq ?_ ho
  refine ((hevolves.tasks t (lt_of_outcome h ho)).sender).resolve_left fun hlive => ?_
  obtain ⟨r, hused, -⟩ := ho
  rw [hused] at hlive
  cases hlive

omit [Semaphore σ] in
theorem Proc.Reports.outcome {msg : InternalCompletionMessage} (h : p.Reports cfg msg)
    (hp : p.Attests sh) : msg.poolName = cfg.poolName ∧ sh.outcome msg.core msg.status := by
  cases h with
  | @wrapper w status hpc _ hmsg =>
    subst hmsg
    have hw : w.pc.Attests sh w.task := hp
    rw [hpc] at hw
    exact ⟨rfl, hw⟩
  | @cancelled d permit t hpc hmsg =>
    subst hmsg
    have hd : d.pc.Attests sh := hp
    rw [hpc] at hd
    exact ⟨rfl, hd⟩

theorem reported {ok : Pool σ R → PoolEvent R → Prop} {s : Pool σ R}
    (h : (poolMachine σ R cfg).Reachable ok s) : Reported cfg s := by
  refine Pool.invariant (I := Reported cfg) .refl ?_ ?_ h ?_
  · intro s b pid p sh p' sp hreach hs _ hp hrun
    have hstep := Proc.step_of_run hrun
    have hkept (t : Nat) (status : TaskCompletionStatus) (ho : s.shared.outcome t status) :
        sh.outcome t status := outcome_kept hreach (.proc hstep) ho
    refine ⟨fun qid q hq => ?_, fun msg hmsg => ?_⟩
    · have hself : p'.Attests sh ∧ ∀ q, sp = some q → q.Attests sh := by
        cases hstep with
        | submit hstep => exact ⟨True.intro, hstep.attests⟩
        | loop hstep =>
          exact hstep.attests (fun t ht => live_of_owns hreach hp ht) (hs.attests pid _ hp)
        | wrapper hstep =>
          refine ⟨hstep.attests fun hun => live_of_owns hreach hp ?_, by rintro q ⟨⟩⟩
          simp [Proc.owns, hun]
        | bystander _ hby' hstep =>
          refine ⟨?_, fun q hq => ?_⟩
          · cases p' <;> first | exact True.intro | exact hby'.elim
          · have hby := hstep.2 q hq
            cases q <;> first | exact True.intro | exact hby.elim
      rcases Threads.update_getElem? hp hq with ⟨rfl, rfl⟩ | ⟨_, hold⟩ | ⟨_, hnew⟩
      · exact hself.1
      · exact (hs.attests qid q hold).evolve hkept
      · exact hself.2 q hnew
    · have hsent : msg ∈ s.shared.notifier.sent ∨ p.Reports cfg msg := by
        cases Proc.queue_of_run hrun with
        | kept hsent => exact .inl (hsent ▸ hmsg)
        | sent hreports _ hsent =>
          rw [Threads.update_shared, hsent, List.mem_append, List.mem_singleton] at hmsg
          rcases hmsg with hold | rfl
          · exact .inl hold
          · exact .inr hreports
      rcases hsent with hold | hreports
      · exact ⟨(hs.sent msg hold).1, hkept _ _ (hs.sent msg hold).2⟩
      · obtain ⟨hname, ho⟩ := hreports.outcome (hs.attests pid p hp)
        exact ⟨hname, hkept _ _ ho⟩
  · intro s c sh sp hreach hs _ hcall
    obtain ⟨hquiet, hfresh⟩ := Call.enter_quiet hcall
    have hkept (t : Nat) (status : TaskCompletionStatus) (ho : s.shared.outcome t status) :
        sh.outcome t status := outcome_kept hreach (.quiet hquiet) ho
    refine ⟨fun qid q hq => ?_, fun msg hmsg => ?_⟩
    · rcases Threads.spawn_getElem? hq with hold | ⟨_, hnew⟩
      · exact (hs.attests qid q hold).evolve hkept
      · cases hfresh q hnew with
        | bystander hby => cases q <;> first | exact True.intro | exact hby.elim
        | submit => exact True.intro
    · rw [Threads.spawn_shared, (Call.notifier_of_enter hcall).1] at hmsg
      exact ⟨(hs.sent msg hmsg).1, hkept _ _ (hs.sent msg hmsg).2⟩
  · refine ⟨fun pid p hp => ?_, by rintro msg ⟨⟩⟩
    obtain ⟨-, rfl⟩ := Pool.init_loop hp
    exact True.intro

/-! ## A task is reported at most once -/

def SubmitPc.seeks : SubmitPc → Option Nat
  | .spawn .. => none
  | pc => pc.task

def LoopPc.seeks : LoopPc → Option Nat
  | .spawn .. => none
  | .cancelLookup _ t => some t
  | pc => pc.task

/-- The task whose completion sender the process, or a later owner of the task, has
yet to look up. -/
def Proc.seeks : Proc R → Option Nat
  | .submit c => c.pc.seeks
  | .loop d => d.pc.seeks
  | _ => none

def SubmitPc.looksUp : SubmitPc → Option Nat
  | .lookup t _ => some t
  | _ => none

def LoopPc.looksUp : LoopPc → Option Nat
  | .lookup t _ | .cancelLookup _ t => some t
  | _ => none

/-- The task whose completion sender the next step of the process looks up. -/
def Proc.looksUp : Proc R → Option Nat
  | .submit c => c.pc.looksUp
  | .loop d => d.pc.looksUp
  | _ => none

/-- The wrapper has not come past its report. -/
def WrapperPc.unreported : WrapperPc R → Bool
  | .poll | .selectCancelled | .resolved _ | .outcome _ | .settled _ => true
  | _ => false

def SubmitPc.captures : SubmitPc → Option Nat
  | .spawn t .. => some t
  | _ => none

def LoopPc.captures : LoopPc → Option Nat
  | .spawn t .. | .cancelNotify _ t => some t
  | _ => none

/-- The task whose completion sender the process has looked up, and which it has not
reported yet. -/
def Proc.captures : Proc R → Option Nat
  | .submit c => c.pc.captures
  | .loop d => d.pc.captures
  | .wrapper w => if w.pc.unreported then some w.task else none
  | _ => none

/-- Whether the process may still report task `t`, as a weight. -/
def Proc.unreported (t : Nat) (p : Proc R) : Nat := names t p.seeks + names t p.captures

/-- The messages for task `t`. -/
def Shared.messagesFor (sh : Shared σ R) (t : Nat) : List InternalCompletionMessage :=
  sh.notifier.sent.filter (·.core == t)

/-- How often task `t` was reported. -/
def Shared.reports (sh : Shared σ R) (t : Nat) : Nat := (sh.messagesFor t).length

/-- The next step of the wrapper makes it unwind: it drops an outcome that is not
passed on, and the destructor panics. -/
def Wrapper.unwinds (sh : Shared σ R) (w : Wrapper R) : Bool :=
  match w.pc with
  | .resolved value =>
    (sh.isCancelled w.task || value.isNone) && discardPanics (sh.tasks w.task).future value
  | .outcome result => resultPanics (sh.tasks w.task) result
  | _ => false

/-- No destructor that the pool may run for the task panics. -/
def TaskFuture.calm (future : TaskFuture R) : Bool :=
  !future.dropPanics && !future.resultDropPanics && !future.payloadDropPanics

omit [Semaphore σ] in
/-- The wrapper of a task without panicking destructors does not unwind. -/
theorem Wrapper.not_unwinds {w : Wrapper R} (hcalm : (sh.tasks w.task).future.calm = true) :
    w.unwinds sh = false := by
  simp only [TaskFuture.calm, Bool.and_eq_true, Bool.not_eq_true'] at hcalm
  obtain ⟨⟨-, hresult⟩, hpayload⟩ := hcalm
  unfold Wrapper.unwinds
  split
  · next value _ => cases value <;> simp [discardPanics, hresult, hpayload]
  · next result _ => cases result <;> simp [resultPanics, hresult]
  · rfl

/-- Why task `t` will not be reported: it is dropped without a result, no sender is
found for it when it is found cancelled, its wrapper has none, its wrapper unwinds,
or the worker has stopped listening. -/
inductive Loses (t : Nat) (sh sh' : Shared σ R) (p : Proc R) : Prop
  | dropped (hdropped : (sh'.tasks t).sender = .dropped) (hlive : (sh.tasks t).sender = .live)
  | unheard (hlooks : p.looksUp = some t) (hsink : sh.notifier.sink ≠ .opened)
  | silent (hcaptures : p.captures = some t) (hsenders : p.senders = 0)
  | unwound {w} (hp : p = .wrapper w) (htask : w.task = t) (hunwinds : w.unwinds sh = true)
  | deaf (hsenders : p.senders = 1) (hdone : sh.notifier.workerDone = true)

/-- The messages for task `t` and the places it has yet to come through to be
reported, but for the process that runs. -/
def Shared.accounted (sh : Shared σ R) (t : Nat) : Nat := sh.queued t + sh.reports t

/-- A step accounts for task `t` as before, or loses its report. -/
def Accounts (t : Nat) (sh sh' : Shared σ R) (p p' : Proc R) (sp : Option (Proc R)) : Prop :=
  sh'.accounted t + p'.unreported t + Threads.started (Proc.unreported t) sp + sh.created t =
      sh.accounted t + p.unreported t + sh'.created t ∨
    (sh'.accounted t + p'.unreported t + Threads.started (Proc.unreported t) sp + sh.created t + 1 =
      sh.accounted t + p.unreported t + sh'.created t ∧ Loses t sh sh' p)

omit [Semaphore σ] in
theorem Shared.reports_eq (h : sh'.notifier.sent = sh.notifier.sent) :
    sh'.reports t = sh.reports t := by
  rw [reports, reports, messagesFor, messagesFor, h]

omit [Semaphore σ] in
theorem Shared.reports_append {msg : InternalCompletionMessage}
    (h : sh'.notifier.sent = sh.notifier.sent ++ [msg]) :
    sh'.reports t = sh.reports t + names t (some msg.core) := by
  rw [reports, reports, messagesFor, messagesFor, h, List.filter_append]
  by_cases ht : msg.core = t <;> simp [ht, names]

omit [Semaphore σ] in
theorem Shared.accounted_eq (hlanes : sh'.lanes = sh.lanes)
    (hsent : sh'.notifier.sent = sh.notifier.sent) : sh'.accounted t = sh.accounted t := by
  rw [accounted, accounted, queued_eq hlanes, reports_eq hsent]

namespace Accounts

omit [Semaphore σ] in
/-- The process that runs may report the same tasks as before. -/
theorem of_eq (hlanes : sh'.lanes = sh.lanes) (hsent : sh'.notifier.sent = sh.notifier.sent)
    (hnext : sh'.nextTaskId = sh.nextTaskId)
    (hp : p'.unreported t + Threads.started (Proc.unreported t) sp = p.unreported t) :
    Accounts t sh sh' p p' sp := by
  refine .inl ?_
  rw [Shared.accounted_eq hlanes hsent, Shared.created_eq hnext]
  omega

omit [Semaphore σ] in
/-- The process that runs is the one that loses the report. -/
theorem of_lost {u : Nat} (hlanes : sh'.lanes = sh.lanes)
    (hsent : sh'.notifier.sent = sh.notifier.sent) (hnext : sh'.nextTaskId = sh.nextTaskId)
    (hp : p.unreported t = names t (some u)) (hp' : p'.unreported t = 0)
    (hloses : t = u → Loses t sh sh' p) : Accounts t sh sh' p p' none := by
  by_cases ht : t = u
  · refine .inr ⟨?_, hloses ht⟩
    rw [Shared.accounted_eq hlanes hsent, Shared.created_eq hnext, hp, hp', ht, names_self]
    simp
    omega
  · refine of_eq hlanes hsent hnext ?_
    rw [hp, hp', names_other ht]
    rfl

omit [Semaphore σ] in
/-- The process that runs sends the report, unless the worker has ended. -/
theorem of_send {msg : InternalCompletionMessage} (hlanes : sh'.lanes = sh.lanes)
    (hnotifier : sh'.notifier = sh.notifier.send msg) (hnext : sh'.nextTaskId = sh.nextTaskId)
    (hp : p.unreported t = names t (some msg.core)) (hp' : p'.unreported t = 0)
    (hsenders : p.senders = 1) : Accounts t sh sh' p p' none := by
  cases hdone : sh.notifier.workerDone with
  | true =>
    have hsent : sh'.notifier.sent = sh.notifier.sent := by
      simp [hnotifier, CompletionNotifier.send, hdone]
    exact of_lost hlanes hsent hnext hp hp' fun _ => .deaf hsenders hdone
  | false =>
    have hsent : sh'.notifier.sent = sh.notifier.sent ++ [msg] := by
      simp [hnotifier, CompletionNotifier.send, hdone]
    refine .inl ?_
    rw [Shared.accounted, Shared.accounted, Shared.queued_eq hlanes, Shared.reports_append hsent,
      Shared.created_eq hnext, hp, hp']
    simp
    omega

end Accounts

omit [Semaphore σ] in
theorem Shared.withdraw_dropped {c : SubmitCall R} (hlive : (sh.tasks t).sender = .live) :
    ((sh.withdraw c t).tasks t).sender = .dropped := by
  simp [Task.dropSender, Task.dropReceiver, hlive]

theorem SubmitStep.accounts {kind : PoolKind} {c c' : SubmitCall R}
    (hlive : c.pc.task = some t → (sh.tasks t).sender = .live)
    (h : SubmitStep kind pid sh c sh' c' sp) : Accounts t sh sh' (.submit c) (.submit c') sp := by
  -- a call that fails drops its task, which is then reported by nobody
  have hdrop {u : Nat} {sh₁ : Shared σ R} (hlanes : sh₁.lanes = sh.lanes)
      (htasks : sh₁.tasks = sh.tasks) (hnotifier : sh₁.notifier = sh.notifier)
      (hnext : sh₁.nextTaskId = sh.nextTaskId) (htask : c.pc.task = some u)
      (hseeks : (Proc.submit c).unreported t = names t (some u))
      (hc' : (Proc.submit c').unreported t = 0) :
      Accounts t sh (sh₁.withdraw c u) (.submit c) (.submit c') none := by
    refine .of_lost hlanes (congrArg (·.sent) hnotifier) hnext hseeks hc' fun ht => ?_
    subst ht
    have hsame : (sh₁.tasks t).sender = .live := by rw [htasks]; exact hlive htask
    exact .dropped (Shared.withdraw_dropped hsame) (hlive htask)
  cases h with
  | create hkind hpc | createScan hkind hpc =>
    refine .inl ?_
    rw [Shared.created_createTask]
    simp [Shared.accounted, Shared.queued, Shared.reports, Shared.messagesFor, Proc.unreported,
      Proc.seeks, Proc.captures, SubmitPc.seeks, SubmitPc.captures, SubmitPc.task, hpc]
    omega
  | @push u lane l hpc hlane =>
    refine .inl ?_
    rw [Shared.accounted, Shared.queued_push hlane]
    simp [Shared.accounted, Shared.reports, Shared.messagesFor, Proc.unreported, Proc.seeks,
      Proc.captures, SubmitPc.seeks, SubmitPc.captures, SubmitPc.task, Shared.created, hpc]
    omega
  | refuse hpc =>
    refine .of_eq rfl rfl rfl ?_
    rcases hpc with hpc | hpc <;>
      simp [Proc.unreported, Proc.seeks, Proc.captures, SubmitPc.seeks, SubmitPc.captures,
        SubmitPc.task, hpc]
  | reject hpc | abandon hpc =>
    rcases hpc with hpc | hpc <;>
      exact hdrop rfl rfl rfl rfl (by simp [SubmitPc.task, hpc])
        (by simp [Proc.unreported, Proc.seeks, Proc.captures, SubmitPc.seeks, SubmitPc.captures,
          SubmitPc.task, hpc]) rfl
  | selectCancelled hpc | pushFails hpc =>
    exact hdrop rfl rfl rfl rfl (by simp [SubmitPc.task, hpc])
      (by simp [Proc.unreported, Proc.seeks, Proc.captures, SubmitPc.seeks, SubmitPc.captures,
        SubmitPc.task, hpc]) rfl
  | lookup hkind hpc =>
    refine .of_eq rfl (CompletionNotifier.sent_lookup _) rfl ?_
    simp [Proc.unreported, Proc.seeks, Proc.captures, SubmitPc.seeks, SubmitPc.captures,
      SubmitPc.task, hpc]
  | spawn hkind hpc =>
    refine .of_eq rfl rfl rfl ?_
    simp [Proc.unreported, Proc.seeks, Proc.captures, SubmitPc.seeks, SubmitPc.captures,
      SubmitPc.task, WrapperPc.unreported, hpc]
  | _ =>
    refine .of_eq rfl rfl rfl ?_
    simp [Proc.unreported, Proc.seeks, Proc.captures, SubmitPc.seeks, SubmitPc.captures,
      SubmitPc.task, *]

theorem LoopStep.accounts {d d' : DispatcherLoop}
    (hlive : d.pc.task = some t → (sh.tasks t).sender = .live)
    (hqueued : 0 < sh.queued t → (sh.tasks t).sender = .live)
    (h : LoopStep cfg pid sh d sh' d' sp) : Accounts t sh sh' (.loop d) (.loop d') sp := by
  -- a task is dropped out of the lane
  have hdiscard {u : Nat} {items : List Nat} {receiver done : Bool}
      (hlane : sh.lanes[d.lane]? = some ⟨u :: items, receiver, done⟩)
      (hd : (Proc.loop d : Proc R).unreported t = 0)
      (hd' : (Proc.loop d' : Proc R).unreported t = 0) :
      Accounts t sh ((sh.setLane d.lane ⟨items, receiver, done⟩).releaseSlot.modifyTask u
        Task.dropSender) (.loop d) (.loop d') none := by
    have htake := Shared.queued_take (t := t) hlane
    have hsame : ((sh.setLane d.lane ⟨items, receiver, done⟩).releaseSlot.modifyTask u
        Task.dropSender).queued t = (sh.setLane d.lane ⟨items, receiver, done⟩).queued t := rfl
    by_cases ht : t = u
    · subst ht
      rw [names_self] at htake
      refine .inr ⟨?_, .dropped ?_ (hqueued (by omega))⟩
      · rw [Shared.accounted, hsame, hd, hd']
        simp [Shared.accounted, Shared.reports, Shared.messagesFor, Shared.created]
        omega
      · simp [Task.dropSender, hqueued (by omega)]
    · rw [names_other ht] at htake
      refine .inl ?_
      rw [Shared.accounted, hsame, hd, hd']
      simp [Shared.accounted, Shared.reports, Shared.messagesFor, Shared.created]
      omega
  cases h with
  | @recv u items receiver done hkind hpc hlane | @recvRlxd u items receiver done hkind hpc hlane =>
    have htake := Shared.queued_take (t := t) hlane
    refine .inl ?_
    simp [Shared.accounted, Shared.queued, Shared.reports, Shared.messagesFor, Shared.created,
      Proc.unreported, Proc.seeks, Proc.captures, LoopPc.seeks, LoopPc.captures, LoopPc.task, hpc]
      at htake ⊢
    omega
  | recvDiscard hkind hpc hlane =>
    exact hdiscard hlane (by simp [Proc.unreported, Proc.seeks, Proc.captures, LoopPc.seeks,
      LoopPc.captures, LoopPc.task, hpc]) rfl
  | drain hpc hlane =>
    exact hdiscard hlane (by simp [Proc.unreported, Proc.seeks, Proc.captures, LoopPc.seeks,
      LoopPc.captures, LoopPc.task, hpc]) rfl
  | @guardStop u hkind hpc | @exitHand u hpc =>
    refine .of_lost (u := u) rfl rfl rfl ?_ rfl fun ht => ?_
    · simp [Proc.unreported, Proc.seeks, Proc.captures, LoopPc.seeks, LoopPc.captures,
        LoopPc.task, hpc]
    · subst ht
      have hlive' := hlive (by simp [LoopPc.task, hpc])
      exact .dropped (by simp [Task.dropSender, hlive']) hlive'
  | lookup hpc | cancelLookup hpc =>
    refine .of_eq rfl (CompletionNotifier.sent_lookup _) rfl ?_
    simp [Proc.unreported, Proc.seeks, Proc.captures, LoopPc.seeks, LoopPc.captures, LoopPc.task,
      hpc]
  | @cancelUnheard permit u hpc hfound =>
    refine .of_lost (u := u) rfl (CompletionNotifier.sent_lookup _) rfl ?_ rfl
      fun ht => .unheard ?_ ?_
    · simp [Proc.unreported, Proc.seeks, Proc.captures, LoopPc.seeks, LoopPc.captures, hpc]
    · simp [Proc.looksUp, LoopPc.looksUp, hpc, ht]
    · rw [Ne, ← CompletionNotifier.lookup_found, hfound]
      exact Bool.false_ne_true
  | @cancelNotify permit u hpc =>
    refine .of_send rfl rfl rfl ?_ rfl ?_
    · simp [Proc.unreported, Proc.seeks, Proc.captures, LoopPc.seeks, LoopPc.captures,
        LoopPc.task, hpc]
    · simp [Proc.senders, LoopPc.senders, hpc]
  | spawn hpc =>
    refine .of_eq rfl rfl rfl ?_
    simp [Proc.unreported, Proc.seeks, Proc.captures, LoopPc.seeks, LoopPc.captures, LoopPc.task,
      WrapperPc.unreported, hpc]
  | @exitReceiver l hpc hlane | @exitLast l hpc hlane =>
    have hset := Shared.queued_setLane (t := t) { l with receiver := false } hlane
    refine .inl ?_
    simp [Shared.accounted, Shared.queued, Shared.reports, Shared.messagesFor, Shared.created,
      Proc.unreported, Proc.seeks, Proc.captures, LoopPc.seeks, LoopPc.captures, LoopPc.task, hpc]
      at hset ⊢
    omega
  | @drained receiver done hpc hlane =>
    have hset := Shared.queued_setLane (t := t) ⟨[], receiver, true⟩ hlane
    refine .inl ?_
    simp [Shared.accounted, Shared.queued, Shared.reports, Shared.messagesFor, Shared.created,
      Proc.unreported, Proc.seeks, Proc.captures, LoopPc.seeks, LoopPc.captures, LoopPc.task, hpc]
      at hset ⊢
    omega
  | _ =>
    refine .of_eq rfl rfl rfl ?_
    simp [Proc.unreported, Proc.seeks, Proc.captures, LoopPc.seeks, LoopPc.captures, LoopPc.task,
      *]

theorem WrapperStep.accounts {w w' : Wrapper R} (h : WrapperStep cfg sh w sh' w') :
    Accounts t sh sh' (.wrapper w) (.wrapper w') none := by
  have hself {pc : WrapperPc R} (hpc : w.pc = pc) (hun : pc.unreported = true) :
      (Proc.wrapper w).unreported t = names t (some w.task) := by
    simp [Proc.unreported, Proc.seeks, Proc.captures, hpc, hun]
  cases h with
  | notify hpc hsender =>
    refine .of_send rfl rfl rfl (hself hpc rfl) ?_ (by simp [Proc.senders, hsender])
    simp [Proc.unreported, Proc.seeks, Proc.captures, WrapperPc.unreported]
  | silent hpc hsender =>
    refine .of_lost rfl rfl rfl (hself hpc rfl) ?_ fun ht => .silent ?_ ?_
    · simp [Proc.unreported, Proc.seeks, Proc.captures, WrapperPc.unreported]
    · simp [Proc.captures, WrapperPc.unreported, hpc, ht]
    · simp [Proc.senders, hsender]
  | @discardUnwind value hpc hcancelled hdrop =>
    refine .of_lost rfl rfl rfl (hself hpc rfl) ?_ fun ht => .unwound rfl ht.symm ?_
    · simp [Proc.unreported, Proc.seeks, Proc.captures, WrapperPc.unreported]
    · rcases hcancelled with hcancelled | rfl <;> simp [Wrapper.unwinds, *]
  | @sendUnwind result hpc hdrop =>
    refine .of_lost rfl rfl rfl (hself hpc rfl) ?_ fun ht => .unwound rfl ht.symm ?_
    · simp [Proc.unreported, Proc.seeks, Proc.captures, WrapperPc.unreported]
    · simpa [Wrapper.unwinds, hpc] using hdrop
  | unwind hpc | unwindSent hpc =>
    refine .of_eq rfl ?_ rfl ?_
    · rw [Shared.hangUp_notifier]
      split <;> rfl
    · simp [Proc.unreported, Proc.seeks, Proc.captures, WrapperPc.unreported, hpc]
  | _ =>
    refine .of_eq rfl rfl rfl ?_
    simp [Proc.unreported, Proc.seeks, Proc.captures, WrapperPc.unreported, *]

/-- Every step of a reachable state accounts for task `t`. -/
theorem Proc.accounts {ok : Pool σ R → PoolEvent R → Prop} {s : Pool σ R} {b : Signal}
    (h : (poolMachine σ R cfg).Reachable ok s) (hp : s.At pid p)
    (hrun : Proc.run cfg b pid s.shared p = some (sh', p', sp)) :
    Accounts t s.shared sh' p p' sp := by
  have hsent := Proc.queue_of_run hrun
  cases Proc.step_of_run hrun with
  | submit hstep => exact hstep.accounts fun ht => live_of_owns h hp ht
  | loop hstep =>
    exact hstep.accounts (fun ht => live_of_owns h hp ht) fun ht => (live_of_queued h ht).2
  | wrapper hstep => exact hstep.accounts
  | bystander hby hby' hstep =>
    have hnone {q : Proc R} (hq : q.bystander) : q.unreported t = 0 := by
      cases q <;> first | rfl | exact hq.elim
    refine .of_eq hstep.1.lanes ?_ hstep.1.nextTaskId ?_
    · cases hsent with
      | kept hsent => exact hsent
      | sent hreports => cases hreports <;> exact hby.elim
    · have hstarted : Threads.started (Proc.unreported t) sp = 0 := by
        cases sp with
        | none => rfl
        | some q => exact hnone (hstep.2 q rfl)
      rw [hnone hby, hnone hby', hstarted]

omit [Semaphore σ] in
theorem Call.unreported_of_enter {c : Call R} (h : c.enter sh = some (sh', sp)) :
    sh'.accounted t = sh.accounted t ∧ sh'.created t = sh.created t ∧
      Threads.started (Proc.unreported t) sp = 0 := by
  obtain ⟨hquiet, hfresh⟩ := Call.enter_quiet h
  refine ⟨Shared.accounted_eq hquiet.lanes ?_, Shared.created_eq hquiet.nextTaskId, ?_⟩
  · rw [(Call.notifier_of_enter h).1]
  · cases sp with
    | none => rfl
    | some q =>
      cases hfresh q rfl with
      | bystander hby => cases q <;> first | rfl | exact hby.elim
      | submit => rfl

/-- In every run a task is reported at most once. -/
theorem task_reported {ok : Pool σ R → PoolEvent R → Prop} {s : Pool σ R}
    (h : (poolMachine σ R cfg).Reachable ok s) (t : Nat) :
    s.shared.queued t + s.shared.reports t + s.tally (Proc.unreported t) ≤ s.shared.created t := by
  refine Pool.invariant (I := fun s =>
    s.shared.accounted t + s.tally (Proc.unreported t) ≤ s.shared.created t) .refl ?_ ?_ h ?_
  · intro s b pid p sh p' sp hreach hs _ hp hrun
    have htally := Threads.tally_update (Proc.unreported t) sh p' sp hp
    rw [Threads.update_shared]
    rcases Proc.accounts (t := t) hreach hp hrun with heq | ⟨heq, -⟩ <;> omega
  · intro s c sh sp _ hs _ hcall
    obtain ⟨haccounted, hcreated, hstarted⟩ := Call.unreported_of_enter (t := t) hcall
    rw [Threads.tally_spawn, Threads.spawn_shared, haccounted, hcreated, hstarted]
    exact hs
  · show (Shared.new cfg : Shared σ R).accounted t +
      (Pool.new σ R cfg).tally (Proc.unreported t) ≤ (Shared.new cfg : Shared σ R).created t
    rw [Pool.tally_new (g := Proc.unreported t) fun _ => rfl]
    simp [Shared.accounted, Shared.queued, Shared.reports, Shared.messagesFor, Shared.new,
      CompletionNotifier.new]

end FuturesOrchestra
