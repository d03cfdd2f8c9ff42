import FuturesOrchestra.Proofs.QueueSlots
import FuturesOrchestra.Proofs.Evolution

/-!
# Shutdown and the calls that wait for a slot

A `submit` call that waits for a queue slot when the token is cancelled. Each poll
of its `select!` asks the token and the gate. The relaxed pool asks the gate first: a
shutdown that also frees slots turns the call away only as long as the gate has nothing
for it.
-/

namespace FuturesOrchestra

open Interleaving Semaphore

variable {σ R : Type} {cfg : PoolConfig} {pid t : Nat} {sh sh' : Shared σ R}
  {c c' : SubmitCall R} {sp : Option (Proc R)}

/-- The call waits for a slot for task `t`, or was turned away, or its future was
dropped. -/
def SubmitPc.turnedAway (t : Nat) : SubmitPc → Prop
  | .selectToken u | .selectAcquire u => u = t
  | .returned (.error .poolShuttingDown) | .abandoned => True
  | _ => False

/-- The call has got its slot for task `t`, and goes on as if the pool were open. -/
def SubmitPc.letIn (t : Nat) : SubmitPc → Prop
  | .sendRoute u | .push u _ | .returned (.ok u) => u = t
  | .returned (.error .queueSendChannelClosed) => True
  | _ => False

/-- Process `pid` is a `submit` call that has returned `PoolShuttingDown`. -/
def TurnedAway (pid : Nat) (s : Pool σ R) : Prop :=
  ∃ c : SubmitCall R, s.At pid (.submit c) ∧ c.pc = .returned (.error .poolShuttingDown)

theorem SubmitCall.abandonAt_pc [Semaphore σ] (h : c.abandonAt pid sh = some (sh', c', sp)) :
    c'.pc = .abandoned := by
  revert h
  fun_cases SubmitCall.abandonAt pid sh c
  all_goals rintro ⟨⟩
  all_goals rfl

variable [Semaphore σ]

/-- The gate has a slot for the process, whose poll would find it although the
token is cancelled. -/
def Proc.servedLate (pid : Nat) (sh : Shared σ R) : Proc R → Bool
  | .submit c =>
    match c.pc with
    | .selectAcquire _ =>
      sh.token && decide (0 < Semaphore.permits sh.queueGate) &&
        ((waiters sh.queueGate).head?.getD pid == pid)
    | _ => false
  | _ => false

/-- The event is not a poll in which process `pid` finds a slot after the token
was cancelled. -/
def unserved (pid : Nat) (s : Pool σ R) : PoolEvent R → Bool
  | .run .step qid => qid != pid || (s.procs[qid]?).all fun p => !p.servedLate qid s.shared
  | _ => true

theorem Proc.servedLate_of_acquired {gate : σ} (hpc : c.pc = .selectAcquire t)
    (htoken : sh.token = true) (hgate : pollAcquire pid sh.queueGate = (gate, true)) :
    (Proc.submit c).servedLate pid sh = true := by
  have hready : 0 < Semaphore.permits sh.queueGate ∧ (waiters sh.queueGate).head?.getD pid = pid := by
    rw [← pollAcquire_ready pid sh.queueGate, hgate]
  simp [servedLate, hpc, htoken, hready]

theorem Proc.acquired_of_servedLate {p : Proc R} (h : p.servedLate pid sh = true) :
    ∃ c t, p = .submit c ∧ c.pc = .selectAcquire t ∧ sh.token = true ∧
      (pollAcquire pid sh.queueGate).2 = true := by
  unfold servedLate at h
  split at h
  · next c =>
    split at h
    · next t hpc =>
      simp only [Bool.and_eq_true, decide_eq_true_eq, beq_iff_eq] at h
      exact ⟨c, t, rfl, hpc, h.1.1, (pollAcquire_ready pid sh.queueGate).mpr ⟨h.1.2, h.2⟩⟩
    · cases h
  · cases h

/-! ## The steps of a call that waits -/

/-- A call of the relaxed pool that waits goes on waiting or is turned away, unless
the gate serves it. -/
theorem SubmitStep.turnedAway_rlxd (htoken : sh.token = true) (hpc : c.pc.turnedAway t)
    (hserved : (Proc.submit c).servedLate pid sh = false)
    (h : SubmitStep .rlxd pid sh c sh' c' sp) : c'.pc.turnedAway t := by
  cases h with
  | selectCancelled | abandon => exact True.intro
  | @selectPending u gate hpc' =>
    rw [hpc'] at hpc
    exact hpc
  | selectAcquiredRlxd _ hpc' hgate =>
    rw [Proc.servedLate_of_acquired hpc' htoken hgate] at hserved
    cases hserved
  | selectToken _ htoken' =>
    rw [htoken] at htoken'
    cases htoken'
  | refuse hpc' | reject hpc' =>
    rcases hpc' with hpc' | hpc' <;> simp [SubmitPc.turnedAway, hpc'] at hpc
  | _ => simp_all [SubmitPc.turnedAway]

/-- A call that has got its slot is never turned away any more. -/
theorem SubmitStep.letIn {kind : PoolKind} (hpc : c.pc.letIn t)
    (h : SubmitStep kind pid sh c sh' c' sp) : c'.pc.letIn t := by
  cases h with
  | sendRoute _ hpc' | push hpc' =>
    rw [hpc'] at hpc
    exact hpc
  | pushFails => exact True.intro
  | refuse hpc' | reject hpc' | abandon hpc' =>
    rcases hpc' with hpc' | hpc' <;> simp [SubmitPc.letIn, hpc'] at hpc
  | _ => simp_all [SubmitPc.letIn]

/-! ## Runs -/

section Runs

variable {s s' : Pool σ R} {ok : Pool σ R → PoolEvent R → Prop}

/-- After the token was cancelled, a fact about where a `submit` call stands is kept
by a run when the steps of the call itself keep it. -/
theorem Pool.follow_submit {I : SubmitPc → Prop}
    (hown : ∀ {s b c sh c' sp}, ok s (.run b pid) → s.shared.token = true → s.At pid (.submit c) →
      I c.pc → Proc.run cfg b pid s.shared (.submit c) = some (sh, .submit c', sp) →
      SubmitStep cfg.kind pid s.shared c sh c' sp → I c'.pc)
    (h : (poolMachine σ R cfg).Steps ok s s') (htoken : s.shared.token = true)
    (hs : ∃ c : SubmitCall R, s.At pid (.submit c) ∧ I c.pc) :
    ∃ c : SubmitCall R, s'.At pid (.submit c) ∧ I c.pc := by
  have hboth : s'.shared.token = true ∧ ∃ c : SubmitCall R, s'.At pid (.submit c) ∧ I c.pc := by
    refine Program.induct (I := fun s => s.shared.token = true ∧
      ∃ c : SubmitCall R, s.At pid (.submit c) ∧ I c.pc) ?_ ?_ h ⟨htoken, hs⟩
    · rintro s b qid p sh p' sp ⟨htoken, c, hc, hi⟩ hok hp hrun
      refine ⟨(Shared.Evolves.proc (Proc.step_of_run hrun)).token htoken, ?_⟩
      by_cases hq : pid = qid
      · subst hq
        obtain rfl := Option.some.inj (hp.symm.trans hc)
        rcases Proc.split_of_run hrun with ⟨c₀, c', hc₀, rfl, hstep⟩ | ⟨_, _, hd, -⟩ |
          ⟨_, _, hw, -⟩ | hstep
        · cases hc₀
          exact ⟨c', Threads.update_self hp, hown hok htoken hc hi hrun hstep⟩
        · cases hd
        · cases hw
        · cases hstep
      · exact ⟨c, Threads.update_other hq hc, hi⟩
    · rintro s call sh sp ⟨htoken, c, hc, hi⟩ _ hcall
      exact ⟨(Call.enter_quiet hcall).1.token htoken, c, Threads.spawn_other hc, hi⟩
  exact hboth.2

/-- The relaxed pool turns a waiting call away as long as no poll of the call finds
a slot after the token was cancelled. -/
theorem Pool.turnedAway_rlxd (hrlxd : cfg.kind = .rlxd) (htoken : s.shared.token = true)
    (h : (poolMachine σ R cfg).Steps (fun s a => unserved pid s a = true) s s')
    (hs : ∃ c : SubmitCall R, s.At pid (.submit c) ∧ c.pc.turnedAway t) :
    ∃ c : SubmitCall R, s'.At pid (.submit c) ∧ c.pc.turnedAway t := by
  refine Pool.follow_submit ?_ h htoken hs
  intro s b c sh c' sp hok htoken hc hi hrun hstep
  cases b with
  | step =>
    rw [hrlxd] at hstep
    exact hstep.turnedAway_rlxd htoken hi (by simpa [unserved, hc] using hok)
  | timeout | panic => cases hrun
  | abandon =>
    obtain ⟨l, hl, heq⟩ := Next.toProc_eq_some hrun
    cases heq
    rw [SubmitCall.abandonAt_pc hl]
    exact True.intro

/-- A call that the gate has served after the token was cancelled is not turned
away any more. -/
theorem Pool.letIn (htoken : s.shared.token = true)
    (h : (poolMachine σ R cfg).Steps Machine.anyStep s s')
    (hs : ∃ c : SubmitCall R, s.At pid (.submit c) ∧ c.pc.letIn t) :
    ∃ c : SubmitCall R, s'.At pid (.submit c) ∧ c.pc.letIn t :=
  Pool.follow_submit (fun _ _ _ hi _ hstep => hstep.letIn hi) h htoken hs

/-- The second half of a poll: the token turns the call away. -/
theorem Pool.step_selectToken (hrlxd : cfg.kind = .rlxd) (htoken : s.shared.token = true)
    {c : SubmitCall R} (hc : s.At pid (.submit c)) (hpc : c.pc = .selectToken t) :
    ∃ s', (poolMachine σ R cfg).step s (.run .step pid) = some s' ∧ TurnedAway pid s' := by
  have hrun : ∃ sh, Proc.run cfg .step pid s.shared (.submit c) = some (sh, .submit (c.failed
      .poolShuttingDown (s.shared.tasks t).future.dropPanics), none) := by
    simp [Proc.run, submitStep, hrlxd, FuturePoolManagerRlxd.submitInner, RlxdQueueProducer.send,
      hpc, htoken, SubmitCall.selectCancelled, SubmitCall.reject, SubmitCall.failed, Next.toProc]
  obtain ⟨sh, hrun⟩ := hrun
  refine ⟨_, Program.step_of_run hc hrun, _, Threads.update_self hc, rfl⟩

/-- The first half of a poll that finds no slot. -/
theorem Pool.step_selectAcquire (hrlxd : cfg.kind = .rlxd) {c : SubmitCall R}
    (hc : s.At pid (.submit c)) (hpc : c.pc = .selectAcquire t)
    (hserved : (pollAcquire pid s.shared.queueGate).2 = false) :
    ∃ s', (poolMachine σ R cfg).step s (.run .step pid) = some s' ∧
      s'.shared.token = s.shared.token ∧ s'.At pid (.submit (c.goto (.selectToken t))) := by
  have hrun : Proc.run cfg .step pid s.shared (.submit c) =
      some ({ s.shared with queueGate := (pollAcquire pid s.shared.queueGate).1 },
        .submit (c.goto (.selectToken t)), none) := by
    simp [Proc.run, submitStep, hrlxd, FuturePoolManagerRlxd.submitInner, RlxdQueueProducer.send,
      hpc, hserved, Next.toProc]
  exact ⟨_, Program.step_of_run hc hrun, rfl, Threads.update_self hc⟩

end Runs

/-- A `submit` of the relaxed pool that waits for a slot when the token is
cancelled is turned away exactly when no poll of its `select!` finds one. In every
run without such a poll it keeps waiting, returns `PoolShuttingDown` or is dropped;
its next poll makes it return that; and after a poll that finds a slot it never
does. -/
theorem waiting_submit_rejected_unless_served (σ R : Type) [Semaphore σ]
    (concurrencyLimit queueCapacity dispatchers : Nat) (poolName : String) (pid t : Nat) :
    let M := poolMachine σ R (.rlxd concurrencyLimit queueCapacity dispatchers poolName)
    ∀ (s : Pool σ R) (c : SubmitCall R), M.Reachable Machine.anyStep s →
      s.shared.token = true → s.At pid (.submit c) →
      c.pc = .selectToken t ∨ c.pc = .selectAcquire t →
      (∀ s', M.Steps (fun s a => unserved pid s a = true) s s' →
        ∃ c' : SubmitCall R, s'.At pid (.submit c') ∧ c'.pc.turnedAway t) ∧
      (c.pc = .selectToken t →
        ∃ s', M.step s (.run .step pid) = some s' ∧ TurnedAway pid s') ∧
      (c.pc = .selectAcquire t → unserved pid s (.run .step pid) = true →
        ∃ s' s'', M.step s (.run .step pid) = some s' ∧
          M.step s' (.run .step pid) = some s'' ∧ TurnedAway pid s'') ∧
      (unserved pid s (.run .step pid) = false → ∀ s' s'',
        M.step s (.run .step pid) = some s' → M.Steps Machine.anyStep s' s'' →
          ∃ c'' : SubmitCall R, s''.At pid (.submit c'') ∧ c''.pc.letIn t) := by
  intro M s c _ htoken hc hwaits
  have hkind : (PoolConfig.rlxd concurrencyLimit queueCapacity dispatchers poolName).kind =
    .rlxd := rfl
  refine ⟨fun s' h => ?_, fun hpc => ?_, fun hpc hun => ?_, fun hserved s' s'' hstep h => ?_⟩
  · refine Pool.turnedAway_rlxd hkind htoken h ⟨c, hc, ?_⟩
    rcases hwaits with hpc | hpc <;> simp [hpc, SubmitPc.turnedAway]
  · exact Pool.step_selectToken hkind htoken hc hpc
  · have hpending : (pollAcquire pid s.shared.queueGate).2 = false := by
      rw [← Bool.not_eq_true]
      intro hready
      have hlate := Proc.servedLate_of_acquired hpc htoken (Prod.ext rfl hready)
      simp [unserved, hc, hlate] at hun
    obtain ⟨s', hstep, htoken', hc'⟩ := Pool.step_selectAcquire hkind hc hpc hpending
    obtain ⟨s'', hstep', hturned⟩ :=
      Pool.step_selectToken (t := t) hkind (htoken'.trans htoken) hc' rfl
    exact ⟨s', s'', hstep, hstep', hturned⟩
  · have hlate : (Proc.submit c).servedLate pid s.shared = true := by
      simpa [unserved, hc] using hserved
    obtain ⟨c₀, u, hc₀, hpc, -, hready⟩ := Proc.acquired_of_servedLate hlate
    cases hc₀
    obtain rfl : u = t := by
      rcases hwaits with hw | hw
      · rw [hpc] at hw
        cases hw
      · rw [hpc] at hw
        exact (SubmitPc.selectAcquire.inj hw)
    obtain ⟨p, sh, p', sp, hp, hrun, rfl⟩ := Program.step_run hstep
    obtain rfl := Option.some.inj (hp.symm.trans hc)
    change Proc.run (.rlxd concurrencyLimit queueCapacity dispatchers poolName) .step pid
      s.shared (.submit c) = _ at hrun
    have htoken' := (Shared.Evolves.proc (Proc.step_of_run hrun)).token htoken
    have hself : p' = .submit (c.goto (.sendRoute u)) := by
      simp [Proc.run, submitStep, PoolConfig.rlxd, FuturePoolManagerRlxd.submitInner,
        RlxdQueueProducer.send, hpc, hready, Next.toProc] at hrun
      exact hrun.2.1.symm
    subst hself
    exact Pool.letIn htoken' h ⟨_, Threads.update_self hc, rfl⟩

/-- A call of the relaxed pool that waits, in a pool whose only permit is taken and
whose queue is full, while another handle shuts the pool down. -/
def waitingRlxd : Pool FairSemaphore Nat :=
  let M := poolMachine FairSemaphore Nat (.rlxd 1 1 1 "pool")
  M.after (fun _ _ => true)
    (.call (.submit 0 ∅ .never) :: stepping [1, 1, 1, 1, 1, 1, 1, 1, 1, 1, 1] ++
      .call (.submit 0 ∅ .never) :: stepping [3, 3, 3, 3, 3, 3, 3, 3, 3, 3, 3] ++
      .call (.submit 0 ∅ .never) :: stepping [4, 4, 4, 4, 4, 4, 4, 4, 4] ++
      .call (.clone 0) :: .call (.shutdown 1 .graceful) :: stepping [5, 5]) M.init

theorem waiting_submit_rejected_unless_served_waiting :
    ∃ s' s'', (poolMachine FairSemaphore Nat (.rlxd 1 1 1 "pool")).step waitingRlxd
        (.run .step 4) = some s' ∧
      (poolMachine FairSemaphore Nat (.rlxd 1 1 1 "pool")).step s' (.run .step 4) = some s'' ∧
      TurnedAway 4 s'' := by
  have hwaiting := waiting_submit_rejected_unless_served FairSemaphore Nat 1 1 1 "pool" 4 2
    waitingRlxd ⟨0, ∅, .never, .selectAcquire 2, false⟩ (Machine.steps_after _ _ _ _).any
    (by decide) rfl (.inr rfl)
  exact hwaiting.2.2.1 rfl (by decide)

/-- The same call when the dispatcher leaves first and drops what was queued. -/
def servedLate : Pool FairSemaphore Nat :=
  (poolMachine FairSemaphore Nat (.rlxd 1 1 1 "pool")).after (fun _ _ => true)
    (stepping [0, 0, 0, 4, 4, 4]) waitingRlxd

/-- The freed slot lets the call in, and it reports a closed channel. -/
theorem waiting_submit_told_channel_closed :
    (poolMachine FairSemaphore Nat (.rlxd 1 1 1 "pool")).Reachable Machine.anyStep waitingRlxd ∧
      waitingRlxd.shared.token = true ∧
      waitingRlxd.At 4 (.submit ⟨0, ∅, .never, .selectAcquire 2, false⟩) ∧
      (poolMachine FairSemaphore Nat (.rlxd 1 1 1 "pool")).Steps Machine.anyStep waitingRlxd
        servedLate ∧
      servedLate.At 4
        (.submit ⟨0, ∅, .never, .returned (.error .queueSendChannelClosed), false⟩) :=
  ⟨(Machine.steps_after _ _ _ _).any, by decide, rfl, (Machine.steps_after _ _ _ _).any, rfl⟩

end FuturesOrchestra
