import FuturesOrchestra.Proofs.Dispatchers
import FuturesOrchestra.Proofs.Requests
import FuturesOrchestra.Proofs.Verdict

/-!
# Every accepted task is settled exactly once

A task whose `submit` has returned `Ok` is in one place at every moment, and when
the dispatchers and the wrappers are gone its handle resolves. In a run that
nobody disturbs, by a cancellation, a shutdown or a dropped manager, a settled
task got its own value.
-/

namespace FuturesOrchestra

open Interleaving

variable {σ R : Type} {cfg : PoolConfig} {pid t : Nat} {sh sh' : Shared σ R}
  {sp : Option (Proc R)}

/-! ## Places -/

/-- The dispatcher loops that hold task `t`. -/
def Proc.inHand (t : Nat) : Proc R → Nat
  | .loop d => names t d.pc.task
  | _ => 0

/-- The wrappers of task `t` that have not settled it. -/
def Proc.executing (t : Nat) : Proc R → Nat
  | .wrapper w => if w.pc.unsettled then names t (some w.task) else 0
  | _ => 0

/-- The `submit` calls that still hold task `t`. -/
def Proc.submitting (t : Nat) : Proc R → Nat
  | .submit c => names t c.pc.task
  | _ => 0

theorem Proc.names_owns (t : Nat) (p : Proc R) :
    names t p.owns = p.inHand t + p.executing t + p.submitting t := by
  cases p with
  | wrapper w =>
    simp only [owns, inHand, executing, submitting]
    split <;> simp
  | _ => simp [owns, inHand, executing, submitting]

/-- Whether the `submit` of a task has returned its handle, as a weight. -/
def Shared.accepted (sh : Shared σ R) (t : Nat) : Nat := (sh.tasks t).accepted.toNat

theorem Shared.accepted_accept (sh : Shared σ R) (u : Nat) :
    (sh.modifyTask u Task.accept).accepted t ≤ sh.accepted t + names t (some u) := by
  by_cases ht : t = u
  · subst ht
    rw [names_self]
    exact (Bool.toNat_le _).trans (Nat.le_add_left _ _)
  · simp [accepted, ht]

variable [Semaphore σ]

theorem SubmitStep.accepted_held {kind : PoolKind} {c c' : SubmitCall R}
    (h : SubmitStep kind pid sh c sh' c' sp) :
    sh'.accepted t + names t c'.pc.task + Threads.started (Proc.submitting t) sp + sh.created t ≤
      sh.accepted t + names t c.pc.task + sh'.created t := by
  have hdrop {sh₁ : Shared σ R} (htasks : sh₁.tasks = sh.tasks) (u : Nat) :
      (sh₁.withdraw c u).accepted t + 0 + 0 + sh.created t ≤
        sh.accepted t + names t c.pc.task + sh.created t := by
    have hkept : (sh₁.withdraw c u).accepted t = sh₁.accepted t :=
      congrArg Bool.toNat (Shared.withdraw_kept Task.accepted Task.dropSender_accepted
        (fun _ => rfl) c u)
    rw [hkept, Shared.accepted, Shared.accepted, htasks]
    omega
  cases h with
  | create hkind hpc | createScan hkind hpc =>
    have hle : (sh.createTask c.labels c.future).accepted t ≤ sh.accepted t := by
      by_cases ht : t = sh.nextTaskId <;> simp [Shared.accepted, ht, Task.new]
    rw [Shared.created_createTask]
    simp only [SubmitPc.task, SubmitCall.goto_pc, hpc, names_none, Threads.started_none]
    omega
  | @push u lane l hpc =>
    have hle := Shared.accepted_accept (t := t)
      (sh.setLane lane { l with items := l.items ++ [u] }) u
    have hsame : (sh.setLane lane { l with items := l.items ++ [u] }).accepted t =
        sh.accepted t := rfl
    simp only [SubmitPc.task, SubmitCall.goto_pc, hpc, names_none, Threads.started_none]
    exact Nat.add_le_add_right (hle.trans_eq (by rw [hsame])) _
  | @spawn u shard sender hkind hpc =>
    have hle := Shared.accepted_accept (t := t) sh u
    simp only [SubmitPc.task, SubmitCall.goto_pc, hpc, names_none, Threads.started_some,
      Proc.submitting]
    exact Nat.add_le_add_right hle _
  | reject | abandon | selectCancelled | pushFails => exact hdrop rfl _
  | _ => simp [Shared.accepted, Shared.created, SubmitPc.task, *]

/-- A call that accepts a task holds it, and leaves the result senders alone. -/
theorem SubmitStep.accepts {kind : PoolKind} {c c' : SubmitCall R}
    (h : SubmitStep kind pid sh c sh' c' sp) (haccepted : (sh'.tasks t).accepted = true) :
    (sh.tasks t).accepted = true ∨
      c.pc.task = some t ∧ sh'.nextTaskId = sh.nextTaskId ∧
        ∀ u, (sh'.tasks u).sender = (sh.tasks u).sender := by
  cases h with
  | create | createScan =>
    by_cases ht : t = sh.nextTaskId
    · simp [ht, Task.new] at haccepted
    · exact .inl (by simpa [ht] using haccepted)
  | reject | selectCancelled | abandon | pushFails =>
    refine .inl ?_
    rwa [Shared.withdraw_kept Task.accepted Task.dropSender_accepted fun _ => rfl] at haccepted
  | @push u lane l hpc | @spawn u shard sender _ hpc =>
    by_cases hu : t = u
    · subst hu
      refine .inr ⟨by rw [hpc]; rfl, rfl, fun v => ?_⟩
      by_cases hv : v = t <;> simp [hv, Task.accept]
    · exact .inl (by simpa [hu] using haccepted)
  | _ => exact .inl haccepted

theorem LoopStep.accepted_kept {d d' : DispatcherLoop} (h : LoopStep cfg pid sh d sh' d' sp) :
    (sh'.tasks t).accepted = (sh.tasks t).accepted := by
  cases h with
  | recvDiscard | guardStop | exitHand | drain =>
    exact Shared.modifyTask_kept Task.accepted Task.dropSender_accepted
  | cancelSend => exact Shared.modifyTask_kept Task.accepted (Task.send_accepted _)
  | _ => rfl

theorem WrapperStep.accepted_kept {w w' : Wrapper R} (h : WrapperStep cfg sh w sh' w') :
    (sh'.tasks t).accepted = (sh.tasks t).accepted := by
  cases h with
  | pollPending | pollReady | pollPanicked | finish =>
    exact Shared.modifyTask_kept Task.accepted fun _ => rfl
  | send | sendUnwind => exact Shared.modifyTask_kept Task.accepted (Task.send_accepted _)
  | unwind => exact Shared.modifyTask_kept Task.accepted Task.dropSender_accepted
  | _ => rfl

/-- A task is not accepted while a `submit` call still holds it. -/
theorem accepted_held {ok : Pool σ R → PoolEvent R → Prop} {s : Pool σ R}
    (h : (poolMachine σ R cfg).Reachable ok s) (t : Nat) :
    s.shared.accepted t + s.tally (Proc.submitting t) ≤ s.shared.created t := by
  refine Pool.bounded (f := fun sh => sh.accepted t) (k := fun sh => sh.created t)
    SubmitStep.accepted_held ?_ ?_ ?_ ?_ (fun _ _ _ => rfl) h ?_
  · intro pid sh d sh' d' sp hstep
    have haccepted : sh'.accepted t = sh.accepted t := congrArg Bool.toNat hstep.accepted_kept
    have hcreated : sh'.created t = sh.created t := by cases hstep <;> rfl
    have hstarted : Threads.started (Proc.submitting t) sp = 0 := by cases hstep <;> rfl
    rw [haccepted, hcreated, hstarted]
    exact le_rfl
  · intro sh w sh' w' hstep
    have haccepted : sh'.accepted t = sh.accepted t := congrArg Bool.toNat hstep.accepted_kept
    have hcreated : sh'.created t = sh.created t := by cases hstep <;> rfl
    rw [haccepted, hcreated]
    exact le_rfl
  · intro sh sh' hquiet
    rw [Shared.accepted, Shared.accepted, (hquiet.tasks t).accepted,
      Shared.created_eq hquiet.nextTaskId]
  · intro p hp
    cases p <;> first | rfl | exact hp.elim
  · show (Shared.new cfg : Shared σ R).accepted t +
      (Pool.new σ R cfg).tally (Proc.submitting t) ≤ (Shared.new cfg : Shared σ R).created t
    rw [Pool.tally_new fun _ => rfl]
    exact Nat.zero_le _

section Places

variable {ok : Pool σ R → PoolEvent R → Prop} {s : Pool σ R}

theorem created_of_accepted (h : (poolMachine σ R cfg).Reachable ok s)
    (ht : (s.shared.tasks t).accepted = true) :
    t < s.shared.nextTaskId ∧ s.tally (Proc.submitting t) = 0 := by
  have hheld := accepted_held h t
  have hone := s.shared.created_le t
  have haccepted : s.shared.accepted t = 1 := by simp [Shared.accepted, ht]
  refine ⟨?_, by omega⟩
  by_contra hlt
  have hnone : s.shared.created t = 0 := by simp [Shared.created, hlt]
  omega

/-- An accepted task is in exactly one place. -/
theorem accepted_placed (h : (poolMachine σ R cfg).Reachable ok s)
    (ht : (s.shared.tasks t).accepted = true) :
    s.shared.queued t + s.tally (Proc.inHand t) + s.tally (Proc.executing t) +
      s.shared.settled t = 1 := by
  have hplaced := task_placed h t
  obtain ⟨hlt, hsubmitting⟩ := created_of_accepted h ht
  have hcreated : s.shared.created t = 1 := by simp [Shared.created, hlt]
  have hsplit : (s.tally fun p => names t p.owns) =
      s.tally (Proc.inHand t) + s.tally (Proc.executing t) + s.tally (Proc.submitting t) := by
    rw [← Threads.tally_add, ← Threads.tally_add]
    simp only [Proc.names_owns]
  omega

end Places

/-! ## Quiescence -/

/-- The wrapper has ended. -/
def WrapperPc.over : WrapperPc R → Bool
  | .ended | .crashed _ => true
  | _ => false

/-- The process is neither a dispatcher loop that runs nor a wrapper that is left. -/
def Proc.over : Proc R → Bool
  | .loop d => d.pc == .exited
  | .wrapper w => w.pc.over
  | _ => true

/-- All dispatcher loops have exited and no spawned wrapper is left. -/
def Quiescent (s : Pool σ R) : Prop := ∀ p ∈ s.procs, p.over = true

instance (s : Pool σ R) : Decidable (Quiescent s) :=
  inferInstanceAs (Decidable (∀ p ∈ s.procs, p.over = true))

omit [Semaphore σ] in
theorem Quiescent.exited {s : Pool σ R} (hs : Quiescent s) {d : DispatcherLoop}
    (hd : s.At pid (.loop d)) : d.pc = .exited := by
  simpa [Proc.over] using hs _ (List.mem_of_getElem? hd)

theorem Quiescent.settled {ok : Pool σ R → PoolEvent R → Prop} {s : Pool σ R}
    (h : (poolMachine σ R cfg).Reachable ok s) (hs : Quiescent s)
    (ht : (s.shared.tasks t).accepted = true) : (s.shared.tasks t).sender.settled = true := by
  have hplaced := accepted_placed h ht
  have hlanes : s.shared.queued t = 0 := by
    refine List.sum_eq_zero fun n hn => ?_
    obtain ⟨l, hl, rfl⟩ := List.mem_map.mp hn
    obtain ⟨i, hi⟩ := List.getElem?_of_mem hl
    have hdispatchers := dispatchers h
    have hlt : i < cfg.lanes := by
      rw [← hdispatchers.lanes]
      exact (List.getElem?_eq_some_iff.mp hi).1
    obtain ⟨d, hd⟩ := hdispatchers.present i hlt
    obtain ⟨l', hl', hagrees⟩ := hdispatchers.agrees i d hd
    obtain rfl := Option.some.inj (hi.symm.trans hl')
    simp [hagrees.empty (hs.exited hd)]
  have hhand : s.tally (Proc.inHand t) = 0 := by
    refine Threads.tally_eq_zero fun pid p hp => ?_
    cases p with
    | loop d => simp [Proc.inHand, hs.exited hp, LoopPc.task]
    | _ => rfl
  have hexecuting : s.tally (Proc.executing t) = 0 := by
    refine Threads.tally_eq_zero fun pid p hp => ?_
    cases p with
    | wrapper w =>
      have hover : w.pc.over = true := hs _ (List.mem_of_getElem? hp)
      cases hpc : w.pc <;> simp_all [Proc.executing, WrapperPc.over, WrapperPc.unsettled]
    | _ => rfl
  have hsettled : s.shared.settled t = 1 := by omega
  exact Bool.toNat_eq_one.mp hsettled

/-- What the handle of a task may be told: the value its future returned, that it
panicked, that it was cancelled, or that it was lost, unstarted or by a destructor
that panicked. -/
def Answers (s : Pool σ R) (t : Nat) : Except PoolError R → Prop
  | .error (.resultChannelError _) => Unstarted s t ∨ (s.shared.tasks t).Lost
  | r => (s.shared.tasks t).Fits r

theorem answers_of_settled {ok : Pool σ R → PoolEvent R → Prop} {s : Pool σ R}
    (h : (poolMachine σ R cfg).Reachable ok s) (ht : t < s.shared.nextTaskId)
    (hreceiver : (s.shared.tasks t).receiver = true)
    (hsettled : (s.shared.tasks t).sender.settled = true) :
    ∃ r, (s.shared.tasks t).awaitResult = some r ∧ Answers s t r := by
  have hverdicts := verdicts h
  cases hsender : (s.shared.tasks t).sender with
  | live => simp [hsender, ResultSender.settled] at hsettled
  | used r =>
    have hfits := hverdicts.used t r ht hsender
    refine ⟨r, by simp [Task.awaitResult, hreceiver, hsender], ?_⟩
    unfold Answers
    split
    · exact hfits.elim
    · exact hfits
  | dropped =>
    obtain ⟨message, hawait⟩ : ∃ message,
        (s.shared.tasks t).awaitResult = some (.error (.resultChannelError message)) := by
      simp [Task.awaitResult, hreceiver, hsender]
    exact ⟨_, hawait, hverdicts.dropped t ht hsender⟩

/-! ## Undisturbed runs -/

/-- The event is no cancellation, no shutdown and no drop of a manager. -/
def undisturbed (_ : Pool σ R) : PoolEvent R → Bool
  | .call (.cancel _) | .call (.cancelLabels ..) | .call (.shutdown ..) | .call (.dropManager _) =>
    false
  | _ => true

/-- The loop is neither at a cancelled task nor on its way out. -/
def LoopPc.serving : LoopPc → Bool
  | .cancelSend .. | .cancelLookup .. | .cancelNotify .. | .cancelDrop .. | .exit .. | .drain
  | .exited => false
  | _ => true

/-- A process of an undisturbed run. -/
def Proc.peaceful : Proc R → Bool
  | .loop d => d.pc.serving
  | .shutdown _ | .drop _ | .labelCancel _ => false
  | _ => true

/-- What holds while nobody disturbs the pool. -/
structure Undisturbed (s : Pool σ R) : Prop where
  token : s.shared.token = false
  senders : 0 < s.shared.queueSenders
  flags : ∀ t, s.shared.isCancelled t = false
  procs : ∀ pid p, s.At pid p → p.peaceful = true
  dropped : ∀ t, t < s.shared.nextTaskId → (s.shared.tasks t).accepted = true →
    (s.shared.tasks t).sender = .dropped → 0 < (s.shared.tasks t).polls

omit [Semaphore σ] in
theorem Proc.not_cancels_of_peaceful {p : Proc R} (h : p.peaceful = true) :
    p.cancels t = false := by
  cases p <;> first | rfl | cases h

theorem LoopStep.serving {d d' : DispatcherLoop} (h : LoopStep cfg pid sh d sh' d' sp)
    (htoken : sh.token = false) (hsenders : 0 < sh.queueSenders)
    (hflags : ∀ t, sh.isCancelled t = false) (hd : d.pc.serving = true) :
    d'.pc.serving = true ∧ ((sh'.tasks t).sender = .dropped → (sh.tasks t).sender = .dropped) := by
  have hne : sh.queueSenders ≠ 0 := hsenders.ne'
  cases h <;> simp_all [LoopPc.serving]

/-- A task is accepted by the `submit` call that holds it, which settles nothing. -/
theorem Proc.Step.accepts {p p' : Proc R} (h : Proc.Step cfg pid sh p sh' p' sp)
    (ht : t < sh.nextTaskId) (haccepted : (sh'.tasks t).accepted = true) :
    (sh.tasks t).accepted = true ∨
      (p.owns = some t ∧ (sh'.tasks t).sender = (sh.tasks t).sender) := by
  cases h with
  | @submit c _ _ _ hstep =>
    have haccept {u : Nat} {sh₁ : Shared σ R} (htasks : sh₁.tasks = sh.tasks)
        (hpc : c.pc.task = some u) (h : ((sh₁.modifyTask u Task.accept).tasks t).accepted = true) :
        (sh.tasks t).accepted = true ∨ ((Proc.submit c).owns = some t ∧
          ((sh₁.modifyTask u Task.accept).tasks t).sender = (sh.tasks t).sender) := by
      by_cases ht : t = u
      · subst ht
        exact .inr ⟨hpc, by simp [Task.accept, htasks]⟩
      · exact .inl (by simpa [ht, htasks] using h)
    cases hstep with
    | create | createScan => exact .inl (by simpa [ht.ne] using haccepted)
    | reject | selectCancelled | abandon | pushFails =>
      refine .inl ?_
      rwa [Shared.withdraw_kept Task.accepted Task.dropSender_accepted fun _ => rfl] at haccepted
    | push hpc => exact haccept rfl (by simp [SubmitPc.task, hpc]) haccepted
    | spawn hkind hpc => exact haccept rfl (by simp [SubmitPc.task, hpc]) haccepted
    | _ => exact .inl haccepted
  | loop hstep => exact .inl (hstep.accepted_kept ▸ haccepted)
  | wrapper hstep => exact .inl (hstep.accepted_kept ▸ haccepted)
  | bystander _ _ hstep => exact .inl ((hstep.1.tasks t).accepted ▸ haccepted)

theorem Proc.calm_of_run {b : Signal} {p p' : Proc R} (hp : p.peaceful = true)
    (h : Proc.run cfg b pid sh p = some (sh', p', sp)) :
    sh'.token = sh.token ∧ sh'.queueSenders = sh.queueSenders := by
  rcases Proc.split_of_run h with ⟨c, c', rfl, rfl, hstep⟩ | ⟨d, d', rfl, rfl, hstep⟩ |
    ⟨w, w', rfl, rfl, hstep, -⟩ | hstep
  · cases hstep <;> exact ⟨rfl, rfl⟩
  · cases hstep <;> exact ⟨rfl, rfl⟩
  · cases hstep <;> exact ⟨rfl, rfl⟩
  · cases hstep with
    | addHandler hstep => cases hstep <;> exact ⟨rfl, rfl⟩
    | notifier hstep => cases hstep <;> exact ⟨rfl, rfl⟩
    | _ => cases hp

section UndisturbedRuns

variable {s : Pool σ R} {ok : Pool σ R → PoolEvent R → Prop} {b : Signal} {p p' : Proc R}

theorem Undisturbed.peaceful (hs : Undisturbed s) (hp : s.At pid p)
    (hrun : Proc.run cfg b pid s.shared p = some (sh, p', sp)) :
    p'.peaceful = true ∧ ∀ q, sp = some q → q.peaceful = true := by
  have hpeaceful := hs.procs pid p hp
  rcases Proc.split_of_run hrun with ⟨c, c', rfl, rfl, hstep⟩ | ⟨d, d', rfl, rfl, hstep⟩ |
    ⟨w, w', rfl, rfl, -, rfl⟩ | hstep
  · refine ⟨rfl, fun q hq => ?_⟩
    cases hstep <;> cases hq
    rfl
  · refine ⟨(hstep.serving (t := 0) hs.token hs.senders hs.flags hpeaceful).1, fun q hq => ?_⟩
    cases hstep <;> cases hq
    rfl
  · exact ⟨rfl, by rintro q ⟨⟩⟩
  · cases hstep with
    | addHandler hstep =>
      refine ⟨rfl, fun q hq => ?_⟩
      cases hstep <;> cases hq
      rfl
    | notifier => exact ⟨rfl, by rintro q ⟨⟩⟩
    | _ => cases hpeaceful

/-- A step of an undisturbed run drops no accepted task, unless its wrapper
unwinds. -/
theorem Undisturbed.kept (hreach : (poolMachine σ R cfg).Reachable ok s) (hs : Undisturbed s)
    (hp : s.At pid p) (hstep : Proc.Step cfg pid s.shared p sh p' sp)
    (ht : t < s.shared.nextTaskId) (haccepted : (sh.tasks t).accepted = true)
    (hdropped : (sh.tasks t).sender = .dropped) : 0 < (sh.tasks t).polls := by
  have hmono := ((Shared.Evolves.proc hstep).tasks t ht).polls
  rcases hstep.accepts ht haccepted with hbefore | ⟨howns, hsame⟩
  · cases hstep.settles ht with
    | kept hkept => exact (hs.dropped t ht hbefore (hkept ▸ hdropped)).trans_le hmono
    | sent _ _ hused =>
      rw [hused] at hdropped
      cases hdropped
    | dropped hdrops hlive _ =>
      have hloop : ∀ d, p ≠ .loop d := by
        rintro d rfl
        cases hstep with
        | loop hstep =>
          have hold := (hstep.serving hs.token hs.senders hs.flags (hs.procs _ _ hp)).2 hdropped
          rw [hlive] at hold
          cases hold
        | bystander hby => exact hby.elim
      cases hdrops with
      | held hc hno =>
        cases p with
        | submit c =>
          have hle := Threads.le_tally (g := Proc.submitting t) hp
          have hnone := (created_of_accepted hreach hbefore).2
          have hcarries : c.pc.task = some t := hc
          simp only [Proc.submitting, hcarries, names_self] at hle
          omega
        | loop d => exact absurd rfl (hloop d)
        | wrapper w => exact absurd rfl (hno w)
        | _ => cases hc
      | @queued d => exact absurd rfl (hloop d)
      | unwind htask hpc =>
        have hknows := (verdicts hreach).knows pid _ hp
        have hlost : (s.shared.tasks t).Lost := by
          simpa [Proc.Knows, WrapperPc.Knows, hpc, htask] using hknows
        exact hlost.polled.trans_le hmono
  · rw [hsame, live_of_owns hreach hp howns] at hdropped
    cases hdropped

theorem Undisturbed.update (hreach : (poolMachine σ R cfg).Reachable ok s) (hs : Undisturbed s)
    (hp : s.At pid p) (hrun : Proc.run cfg b pid s.shared p = some (sh, p', sp)) :
    Undisturbed (s.update pid sh p' sp) := by
  have hpeaceful := hs.procs pid p hp
  have hstep := Proc.step_of_run hrun
  obtain ⟨htoken, hsenders⟩ := Proc.calm_of_run hpeaceful hrun
  obtain ⟨hself, hnew⟩ := hs.peaceful hp hrun
  refine ⟨htoken.trans hs.token, hsenders ▸ hs.senders, fun t => ?_, fun qid q hq => ?_,
    fun t ht haccepted hdropped => ?_⟩
  · rw [← Bool.not_eq_true]
    intro hflag
    rcases Proc.isCancelled_of_run hrun hflag with hold | hcancels
    · simp [hs.flags t] at hold
    · simp [Proc.not_cancels_of_peaceful hpeaceful] at hcancels
  · rcases Threads.update_getElem? hp hq with ⟨rfl, rfl⟩ | ⟨_, hold⟩ | ⟨_, hstarted⟩
    · exact hself
    · exact hs.procs qid q hold
    · exact hnew q hstarted
  · by_cases hold : t < s.shared.nextTaskId
    · exact hs.kept hreach hp hstep hold haccepted hdropped
    · obtain ⟨labels, future, htask⟩ := hstep.created_new (by omega) ht
      simp [htask] at hdropped

omit [Semaphore σ] in
theorem Undisturbed.spawn {c : Call R} (hs : Undisturbed s)
    (hok : undisturbed s (.call c) = true) (hcall : c.enter s.shared = some (sh, sp)) :
    Undisturbed (s.spawn sh sp) := by
  have hquiet := (Call.enter_quiet hcall).1
  have hframe : sh.token = s.shared.token ∧ s.shared.queueSenders ≤ sh.queueSenders ∧
      ∀ q, sp = some q → q.peaceful = true := by
    revert hcall hok
    fun_cases Call.enter s.shared c
    all_goals rintro hok ⟨⟩
    all_goals first | exact absurd hok Bool.false_ne_true | refine ⟨rfl, by simp [Shared.borrow], ?_⟩
    all_goals
      rintro q ⟨⟩
      try rfl
  obtain ⟨htoken, hsenders, hnew⟩ := hframe
  refine ⟨htoken.trans hs.token, hs.senders.trans_le hsenders, fun t => ?_, fun qid q hq => ?_,
    fun t ht haccepted hdropped => ?_⟩
  · rw [← Bool.not_eq_true]
    intro hflag
    rcases Call.isCancelled_of_enter hcall hflag with hold | hcancels
    · simp [hs.flags t] at hold
    · cases c with
      | cancel => exact absurd hok Bool.false_ne_true
      | _ => exact absurd hcancels Bool.false_ne_true
  · rcases Threads.spawn_getElem? hq with hold | ⟨_, hstarted⟩
    · exact hs.procs qid q hold
    · exact hnew q hstarted
  · simp only [Threads.spawn_shared, hquiet.nextTaskId, (hquiet.tasks t).accepted,
      (hquiet.tasks t).sender, (hquiet.tasks t).polls] at ht haccepted hdropped ⊢
    exact hs.dropped t ht haccepted hdropped

theorem undisturbed_runs
    (h : (poolMachine σ R cfg).Reachable (fun s a => undisturbed s a = true) s) :
    Undisturbed s := by
  have hboth : (poolMachine σ R cfg).Reachable Machine.anyStep s ∧ Undisturbed s := by
    refine h.invariant (I := fun s => (poolMachine σ R cfg).Reachable Machine.anyStep s ∧
      Undisturbed s) ?_ ⟨.refl, ?_⟩
    · rintro s a s' ⟨hreach, hs⟩ hok hnext
      refine ⟨hreach.tail trivial hnext, ?_⟩
      cases a with
      | run b pid =>
        obtain ⟨p, sh, p', sp, hp, hrun, rfl⟩ := Program.step_run hnext
        exact hs.update hreach hp hrun
      | call c =>
        obtain ⟨sh, sp, hcall, rfl⟩ := Program.step_call hnext
        exact hs.spawn hok hcall
    · refine ⟨rfl, Nat.one_pos, fun _ => rfl, fun pid p hp => ?_, fun t ht => ?_⟩
      · obtain ⟨-, rfl⟩ := Pool.init_loop hp
        rfl
      · exact absurd ht t.not_lt_zero
  exact hboth.2

/-- In an undisturbed run a task that does not panic is settled with its value. -/
theorem Undisturbed.own_value
    (h : (poolMachine σ R cfg).Reachable (fun s a => undisturbed s a = true) s)
    (haccepted : (s.shared.tasks t).accepted = true)
    (hsettled : (s.shared.tasks t).sender.settled = true)
    (hpanics : ∀ n, (s.shared.tasks t).future.poll n ≠ .panicked) :
    ∃ v, (s.shared.tasks t).returned = some v ∧ (s.shared.tasks t).sender = .used (.ok v) := by
  have hs := undisturbed_runs h
  have hverdicts := verdicts h
  have hlt := (created_of_accepted h haccepted).1
  have hcalm : (s.shared.tasks t).hasPanicked = false := by
    unfold Task.hasPanicked
    split
    · rfl
    · split
      · next hpanicked => exact absurd hpanicked (hpanics _)
      · rfl
  have hflag : (s.shared.tasks t).isCancelled = false := hs.flags t
  cases hsender : (s.shared.tasks t).sender with
  | live => simp [hsender, ResultSender.settled] at hsettled
  | used r =>
    have hfits := hverdicts.used t r hlt hsender
    cases r with
    | ok v => exact ⟨v, hfits, rfl⟩
    | error e =>
      cases e with
      | taskPanicked => simp [Task.Fits, hcalm] at hfits
      | taskCancelled => simp [Task.Fits, hflag] at hfits
      | _ => exact hfits.elim
  | dropped =>
    have hpolled := hs.dropped t hlt haccepted hsender
    rcases hverdicts.dropped t hlt hsender with hun | hlost
    · rw [hverdicts.unpolled t hlt hun] at hpolled
      cases hpolled
    · simp [Task.Lost, hcalm, hflag] at hlost

end UndisturbedRuns

/-! ## The law -/

omit [Semaphore σ] in
theorem Proc.owns_of_sends {p : Proc R} {r : Except PoolError R} (h : p.Sends t r) :
    p.owns = some t := by
  cases h with
  | wrapper htask hpc => simp [owns, WrapperPc.unsettled, hpc, htask]
  | cancelled hpc => simp [owns, LoopPc.task, hpc]

omit [Semaphore σ] in
theorem ResultSender.settled_ne_live {sender : ResultSender R} (h : sender.settled = true) :
    sender ≠ .live := by
  rintro rfl
  cases h

/-- What is promised of an accepted task in one state: it is in one place, has at
most one wrapper, its sender is unused when a process is about to use it and
never changes once it is gone, and in a quiescent state its handle resolves. -/
structure SettledOnce (cfg : PoolConfig) (s : Pool σ R) (t : Nat) : Prop where
  placed : s.shared.queued t + s.tally (Proc.inHand t) + s.tally (Proc.executing t) +
    s.shared.settled t = 1
  spawned : ∀ pid qid (w w' : Wrapper R), s.At pid (.wrapper w) → s.At qid (.wrapper w') →
    w.task = t → w'.task = t → pid = qid
  sends : ∀ pid p r, s.At pid p → p.Sends t r → (s.shared.tasks t).sender = .live
  final : ∀ s', (poolMachine σ R cfg).Steps Machine.anyStep s s' →
    (s.shared.tasks t).sender.settled = true →
    (s'.shared.tasks t).sender = (s.shared.tasks t).sender
  resolves : Quiescent s → (s.shared.tasks t).receiver = true →
    ∃ r, (s.shared.tasks t).awaitResult = some r ∧ Answers s t r

/-- Every accepted task is settled exactly once, in every run; and in a run that
was undisturbed until the task was settled, a task that does not panic has got its
own value, which is what its handle reads from then on. -/
theorem accepted_settled_once (σ R : Type) [Semaphore σ] (cfg : PoolConfig) (t : Nat) :
    (∀ s : Pool σ R, (poolMachine σ R cfg).Reachable Machine.anyStep s →
      (s.shared.tasks t).accepted = true → SettledOnce cfg s t) ∧
    ∀ s s' : Pool σ R,
      (poolMachine σ R cfg).Reachable (fun s a => undisturbed s a = true) s →
      (poolMachine σ R cfg).Steps Machine.anyStep s s' →
      (s.shared.tasks t).accepted = true → (s.shared.tasks t).sender.settled = true →
      (∀ n, (s.shared.tasks t).future.poll n ≠ .panicked) →
      ∃ v, (s.shared.tasks t).returned = some v ∧ (s'.shared.tasks t).sender = .used (.ok v) ∧
        ((s'.shared.tasks t).receiver = true →
          (s'.shared.tasks t).awaitResult = some (.ok v)) := by
  have hfinal {s s' : Pool σ R} (h : (poolMachine σ R cfg).Steps Machine.anyStep s s')
      (ht : t < s.shared.nextTaskId) (hsettled : (s.shared.tasks t).sender.settled = true) :
      (s'.shared.tasks t).sender = (s.shared.tasks t).sender :=
    (((Shared.Evolves.steps h).tasks t ht).sender).resolve_left
      (ResultSender.settled_ne_live hsettled)
  refine ⟨fun s h haccepted => ?_, fun s s' h hsteps haccepted hsettled hpanics => ?_⟩
  · have hlt := (created_of_accepted h haccepted).1
    refine ⟨accepted_placed h haccepted, fun pid qid w w' hw hw' hwt hwt' => ?_,
      fun pid p r hp hsends => live_of_owns h hp (Proc.owns_of_sends hsends),
      fun s' hsteps hsettled => hfinal hsteps hlt hsettled, fun hquiescent hreceiver => ?_⟩
    · exact carrier_unique h hw hw' (congrArg some hwt) (congrArg some hwt')
    · exact answers_of_settled h hlt hreceiver (hquiescent.settled h haccepted)
  · have hlt := (created_of_accepted h haccepted).1
    obtain ⟨v, hreturned, hsender⟩ := Undisturbed.own_value h haccepted hsettled hpanics
    have hsender' : (s'.shared.tasks t).sender = .used (.ok v) :=
      (hfinal hsteps hlt hsettled).trans hsender
    exact ⟨v, hreturned, hsender', fun hreceiver => by
      simp [Task.awaitResult, hreceiver, hsender']⟩

/-- A strict pool that has run one task to its end, undisturbed. -/
def served : Pool FairSemaphore Nat :=
  let M := poolMachine FairSemaphore Nat (.manager 1 1 "pool")
  M.after undisturbed
    (.call (.submit 0 ∅ (.ready 7)) :: stepping [1, 1, 1, 1, 1, 1, 1, 1] ++
      stepping [0, 0, 0, 0, 0, 0, 0, 0, 0] ++ stepping [2, 2, 2, 2, 2, 2]) M.init

/-- The same pool shut down. -/
def servedAndClosed : Pool FairSemaphore Nat :=
  (poolMachine FairSemaphore Nat (.manager 1 1 "pool")).after (fun _ _ => true)
    (.call (.shutdown 0 .graceful) :: stepping [3, 3, 0, 0, 0]) served

theorem accepted_settled_once_served :
    Quiescent servedAndClosed ∧
      (∃ r, (servedAndClosed.shared.tasks 0).awaitResult = some r ∧ Answers servedAndClosed 0 r) ∧
      ∃ v, (served.shared.tasks 0).returned = some v ∧
        (servedAndClosed.shared.tasks 0).sender = .used (.ok v) := by
  have hserved : (poolMachine FairSemaphore Nat (.manager 1 1 "pool")).Reachable
      (fun s a => undisturbed s a = true) served := Machine.steps_after _ _ _ _
  have hclosed : (poolMachine FairSemaphore Nat (.manager 1 1 "pool")).Steps Machine.anyStep
      served servedAndClosed := (Machine.steps_after _ _ _ _).any
  have hlaw := accepted_settled_once FairSemaphore Nat (.manager 1 1 "pool") 0
  refine ⟨by decide, (hlaw.1 servedAndClosed (hserved.any.trans hclosed) (by decide)).resolves
    (by decide) (by decide), ?_⟩
  obtain ⟨v, hreturned, hsender, -⟩ := hlaw.2 served servedAndClosed hserved hclosed (by decide)
    (by decide) fun n => nofun
  exact ⟨v, hreturned, hsender⟩

/-- A task that is cancelled after its future has returned a value whose destructor
panics, in a pool that is then shut down. -/
def lostValue : Pool FairSemaphore Nat :=
  let M := poolMachine FairSemaphore Nat (.manager 1 1 "pool")
  M.after (fun _ _ => true)
    (.call (.submit 0 ∅ { TaskFuture.ready 7 with resultDropPanics := true }) ::
      stepping [1, 1, 1, 1, 1, 1, 1, 1] ++ stepping [0, 0, 0, 0, 0, 0, 0, 0, 0] ++
      stepping [2] ++ .call (.cancel 0) :: stepping [2, 2] ++
      .call (.shutdown 0 .graceful) :: stepping [3, 3, 0, 0, 0]) M.init

/-- The task was started and polled, and yet its handle is told that the result
channel closed, like that of a task dropped unstarted. -/
theorem started_task_answers_channel_error :
    (poolMachine FairSemaphore Nat (.manager 1 1 "pool")).Reachable Machine.anyStep lostValue ∧
      Quiescent lostValue ∧ (lostValue.shared.tasks 0).polls = 1 ∧
      (lostValue.shared.tasks 0).awaitResult = some (.error (.resultChannelError
        ("Task (id: 0) result channel unexpectedly closed: " ++ Task.oneshotDisconnected))) :=
  ⟨(Machine.steps_after _ _ _ _).any, by decide, by decide, by decide⟩

end FuturesOrchestra
