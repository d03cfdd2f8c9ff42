import FuturesOrchestra.Lib.Schedules
import FuturesOrchestra.Proofs.Stuck

/-!
# Winding down

Once the shutdown token is cancelled a pool runs down by itself: the dispatchers, the
submissions in progress and the spawned wrappers have a bounded number of steps left,
not counting the polls of futures that are not ready, and when they have taken them
all nothing of the pool is left. The bound is a rank that every such step lowers.
-/

namespace FuturesOrchestra

open Interleaving Semaphore

variable {σ R : Type} {cfg : PoolConfig} {pid : Nat} {sh sh' : Shared σ R}
  {sp : Option (Proc R)} {p p' : Proc R}

/-! ## How far a process is from its end -/

/-- The steps of a wrapper until it has ended, polls that stay pending apart. -/
def WrapperPc.toGo : WrapperPc R → Nat
  | .poll | .selectCancelled => 7
  | .resolved _ => 6
  | .outcome _ => 5
  | .settled _ => 4
  | .closing => 3
  | .finish => 2
  | .release | .remove | .unwind _ => 1
  | .ended | .crashed _ => 0

/-- The steps of a dispatcher loop that finds the token cancelled, the tasks in its lane
apart. A loop about to spawn pays for the wrapper. -/
def LoopPc.toGo : LoopPc → Nat
  | .precheck .. => 15
  | .insertCount _ => 14
  | .insert _ => 13
  | .lookup .. => 12
  | .spawn .. => 11
  | .cancelSend .. => 8
  | .cancelLookup .. => 7
  | .cancelNotify .. | .acquire _ | .recv _ => 6
  | .cancelDrop .. | .recheck _ | .recvToken _ | .guard _ => 5
  | .acquireToken _ | .exit true _ => 4
  | .top | .exit false (some _) => 3
  | .exit false none => 2
  | .drain => 1
  | .exited => 0

/-- The steps of a `submit` call after the token is cancelled. A call that has passed the
two checks may still scan the lanes and dispatch its task. -/
def SubmitPc.toGo (cfg : PoolConfig) : SubmitPc → Nat
  | .checkClosed => cfg.lanes + 17
  | .create => cfg.lanes + 16
  | .scan _ lane _ => cfg.lanes - lane + 15
  | .tryAcquire _ => 14
  | .route _ => 13
  | .insertCount .. => 12
  | .insert .. => 11
  | .lookup .. => 10
  | .spawn .. => 9
  | .sendClosed _ => 5
  | .selectAcquire _ => 4
  | .sendRoute _ => 3
  | .push .. => 2
  | .checkToken | .sendToken _ | .selectToken _ => 1
  | .returned _ | .abandoned => 0

def Proc.toGo (cfg : PoolConfig) : Proc R → Nat
  | .submit c => c.pc.toGo cfg
  | .loop d => d.pc.toGo
  | .wrapper w => w.pc.toGo
  | _ => 0

/-- The steps that are left in a pool whose token is cancelled. A queued task is one step
of the dispatcher that drops it. -/
def Pool.toGo (cfg : PoolConfig) (s : Pool σ R) : Nat :=
  s.shared.messages + s.tally (Proc.toGo cfg)

/-- The next step of the process polls a future that is not ready, or wakes up to do so. -/
def Proc.idles (sh : Shared σ R) : Proc R → Bool
  | .wrapper w =>
    match w.pc with
    | .poll =>
      match (sh.tasks w.task).future.poll (sh.tasks w.task).polls with
      | .pending => true
      | _ => false
    | .selectCancelled => !sh.isCancelled w.task
    | _ => false
  | _ => false

/-- A step of a submitter, a dispatcher or a wrapper is an effort, unless it only polls in
vain. -/
def Proc.effort (sh : Shared σ R) (p : Proc R) : Nat := (p.working && !p.idles sh).toNat

def effort (s : Pool σ R) : PoolEvent R → Nat
  | .run _ pid => ((s.procs[pid]?).map (Proc.effort s.shared)).getD 0
  | .call _ => 0

/-- The submissions that a call begins. -/
def PoolEvent.submissions : PoolEvent R → Nat
  | .call (.submit ..) => 1
  | _ => 0

theorem Proc.toGo_bystander (hp : p.bystander) : p.toGo cfg = 0 := by
  cases p <;> first | rfl | exact hp.elim

theorem Proc.effort_bystander (hp : p.bystander) : p.effort sh = 0 := by
  cases p <;> first | rfl | exact hp.elim

section Steps

variable [Semaphore σ]

theorem SubmitStep.toGo_lt {c c' : SubmitCall R} (h : SubmitStep cfg.kind pid sh c sh' c' sp)
    (htoken : sh.token = true) (hlanes : sh.lanes.length = cfg.lanes) :
    sh'.messages + c'.pc.toGo cfg + Threads.started (Proc.toGo cfg) sp <
      sh.messages + c.pc.toGo cfg := by
  cases h with
  | scan hpc hlane =>
    have hlt := (List.getElem?_eq_some_iff.mp hlane).1
    simp only [SubmitCall.goto_pc, hpc, SubmitPc.toGo, Threads.started_none]
    omega
  | @push t lane l hpc hlane hrecv =>
    have hmessages := Shared.messages_setLane { l with items := l.items ++ [t] } hlane
    simp [SubmitPc.toGo, Shared.messages, hpc] at hmessages ⊢
    omega
  | spawn hkind hpc =>
    simp [SubmitPc.toGo, Shared.messages, Proc.toGo, WrapperPc.toGo, hpc]
  | refuse hpc | reject hpc | abandon hpc =>
    rcases hpc with hpc | hpc <;> simp [SubmitPc.toGo, Shared.messages, hpc]
  | checkToken hpc hopen | sendToken hpc hopen | selectToken hpc hopen =>
    rw [hopen] at htoken
    cases htoken
  | _ => simp [SubmitPc.toGo, Shared.messages, *]

/-- On the way out a loop with a permit has one more step to take. -/
theorem LoopPc.toGo_exit_le (permit : Bool) (hand : Option Nat) :
    (LoopPc.exit permit hand).toGo ≤ 4 := by
  cases permit with
  | true => exact le_rfl
  | false => cases hand <;> simp [LoopPc.toGo]

theorem LoopStep.toGo_lt {d d' : DispatcherLoop} (h : LoopStep cfg pid sh d sh' d' sp)
    (htoken : sh.token = true) :
    sh'.messages + d'.pc.toGo + Threads.started (Proc.toGo cfg) sp <
      sh.messages + d.pc.toGo := by
  cases h with
  | @recv t items receiver done _ hpc hlane | @recvDiscard t items receiver done _ hpc hlane
  | @drain t items receiver done hpc hlane =>
    have hmessages := Shared.messages_setLane ⟨items, receiver, done⟩ hlane
    simp [Shared.messages, LoopPc.toGo, hpc] at hmessages ⊢
    omega
  | @exitReceiver l hpc hlane | @exitLast l hpc hlane =>
    have hmessages := Shared.messages_setLane { l with receiver := false } hlane
    simp [Shared.messages, LoopPc.toGo, hpc] at hmessages ⊢
    omega
  | @drained receiver done hpc hlane =>
    have hmessages := Shared.messages_setLane ⟨[], receiver, true⟩ hlane
    simp [Shared.messages, LoopPc.toGo, hpc] at hmessages ⊢
    omega
  -- these steps find the token still open
  | top _ _ hopen | topRlxd _ _ hopen | acquireAgain _ hopen | recheck _ _ hopen
  | recheckRlxd _ _ hopen | recvRlxd _ _ _ hopen | recvAgain _ hopen | guard _ _ hopen =>
    rw [hopen] at htoken
    cases htoken
  | spawn hpc => simp [LoopPc.toGo, Proc.toGo, WrapperPc.toGo, Shared.messages, hpc]
  | @acquireStop hand hpc | @exitPermit hand hpc =>
    have hexit : (LoopPc.exit false hand).toGo < 4 := by cases hand <;> simp [LoopPc.toGo]
    simp [LoopPc.toGo, Shared.messages, hpc] at hexit ⊢
    omega
  | @recvClosed permit _ _ hpc | @recvStop permit hpc | @cancelPanic permit _ hpc =>
    have hexit := LoopPc.toGo_exit_le permit none
    simp [LoopPc.toGo, Shared.messages, hpc] at hexit ⊢
    omega
  | _ => simp [LoopPc.toGo, Shared.messages, *]

theorem WrapperStep.toGo_le {w w' : Wrapper R} (h : WrapperStep cfg sh w sh' w') :
    sh'.messages + w'.pc.toGo + (Proc.wrapper w).effort sh ≤ sh.messages + w.pc.toGo := by
  cases h with
  | pollPending hpc hpoll | pollReady hpc hpoll | pollPanicked hpc hpoll =>
    simp [Proc.effort, Proc.idles, Proc.working, WrapperPc.toGo, Shared.messages, hpc, hpoll]
  | wake hpc hcancelled | cancelled hpc hcancelled =>
    simp [Proc.effort, Proc.idles, Proc.working, WrapperPc.toGo, Shared.messages, hpc, hcancelled]
  | _ => simp [Proc.effort, Proc.idles, Proc.working, WrapperPc.toGo, Shared.messages, *]

/-- Every step lowers what is left by the effort it takes. -/
theorem Proc.toGo_of_run {b : Signal} (htoken : sh.token = true)
    (hlanes : sh.lanes.length = cfg.lanes) (h : Proc.run cfg b pid sh p = some (sh', p', sp)) :
    sh'.messages + p'.toGo cfg + Threads.started (Proc.toGo cfg) sp + p.effort sh ≤
      sh.messages + p.toGo cfg := by
  cases Proc.step_of_run h with
  | submit hstep =>
    have hlt := hstep.toGo_lt htoken hlanes
    simp only [Proc.toGo, Proc.effort, Proc.working, Proc.idles, Bool.not_false, Bool.and_self,
      Bool.toNat_true]
    omega
  | loop hstep =>
    have hlt := hstep.toGo_lt htoken
    simp only [Proc.toGo, Proc.effort, Proc.working, Proc.idles, Bool.not_false, Bool.and_self,
      Bool.toNat_true]
    omega
  | wrapper hstep =>
    have hle := hstep.toGo_le
    simp only [Proc.toGo, Threads.started_none]
    omega
  | bystander hby hby' hstep =>
    have hmessages := Shared.messages_eq hstep.1.lanes
    have hidle : p.effort sh = 0 := Proc.effort_bystander hby
    have hbefore : p.toGo cfg = 0 := Proc.toGo_bystander hby
    have hafter : p'.toGo cfg = 0 := Proc.toGo_bystander hby'
    have hstarted : Threads.started (Proc.toGo cfg) sp = 0 := by
      cases hsp : sp with
      | none => rfl
      | some q => exact Proc.toGo_bystander (hstep.2 q hsp)
    omega

variable {s s' : Pool σ R} {ok : Pool σ R → PoolEvent R → Prop}

omit [Semaphore σ] in
theorem Call.toGo_of_enter (cfg : PoolConfig) {c : Call R} (h : c.enter sh = some (sh', sp)) :
    Threads.started (Proc.toGo cfg) sp ≤ PoolEvent.submissions (.call c) := by
  revert h
  fun_cases Call.enter sh c
  all_goals rintro ⟨⟩
  all_goals exact le_rfl

theorem Pool.toGo_step {e : PoolEvent R} (h : (poolMachine σ R cfg).Reachable Machine.anyStep s)
    (htoken : s.shared.token = true) (hstep : (poolMachine σ R cfg).step s e = some s') :
    s'.shared.token = true ∧ s'.toGo cfg + effort s e ≤ s.toGo cfg + e.submissions := by
  cases e with
  | run b pid =>
    obtain ⟨p, sh, p', sp, hp, hrun, rfl⟩ := Program.step_run hstep
    have hfalls := Proc.toGo_of_run htoken (dispatchers h).lanes hrun
    have htally := Threads.tally_update (Proc.toGo cfg) sh p' sp hp
    refine ⟨(Shared.Evolves.proc (Proc.step_of_run hrun)).token htoken, ?_⟩
    simp only [Pool.toGo, Threads.update_shared, effort, hp, Option.map_some, Option.getD_some]
    omega
  | call c =>
    obtain ⟨sh, sp, hcall, rfl⟩ := Program.step_call hstep
    have hquiet := (Call.enter_quiet hcall).1
    have htally := Threads.tally_spawn (Proc.toGo cfg) s sh sp
    have hmessages := Shared.messages_eq hquiet.lanes
    have hnew := Call.toGo_of_enter cfg hcall
    refine ⟨hquiet.token htoken, ?_⟩
    simp only [Pool.toGo, Threads.spawn_shared, effort]
    omega

/-! ## When nothing is left to do -/

omit [Semaphore σ] in
/-- Where a working process has ended it holds no permit. -/
theorem Proc.permits_of_ended (hended : p.ended = true) : p.permits = 0 := by
  cases p with
  | submit c =>
    obtain ⟨clone, labels, future, pc, unwound⟩ := c
    cases pc <;> first | rfl | cases hended
  | loop d =>
    have hpc : d.pc = .exited := by simpa [Proc.ended] using hended
    simp [Proc.permits, hpc, LoopPc.permits]
  | wrapper w =>
    obtain ⟨task, slot, sender, pc⟩ := w
    cases pc <;> first | rfl | cases hended
  | _ => rfl

/-- No dispatcher, submission or wrapper can take a step, and none aborts. -/
def Pool.stopped (cfg : PoolConfig) (s : Pool σ R) : Bool :=
  (List.range s.procs.length).all fun pid =>
    (s.procs[pid]?).all fun p => !p.working || (s.halted cfg pid && !p.aborts s.shared)

theorem Pool.stopped_at (hstopped : s.stopped cfg = true) (hp : s.At pid p)
    (hworks : p.working = true) : s.halted cfg pid = true ∧ p.aborts s.shared = false := by
  have hlt : pid < s.procs.length := (List.getElem?_eq_some_iff.mp hp).1
  have hall := List.all_eq_true.mp hstopped pid (List.mem_range.mpr hlt)
  simpa [hp, hworks] using hall

/-- When they have all stopped they have all ended. -/
theorem ended_of_stopped (hcfg : cfg.Built) (h : (poolMachine σ R cfg).Reachable ok s)
    (hstopped : s.stopped cfg = true) (hp : s.At pid p) (hworks : p.working = true) :
    p.ended = true := by
  obtain ⟨hstuck, hsafe⟩ := Pool.stopped_at hstopped hp hworks
  have hfree : p.waits s.shared = false := by
    cases p <;> first | rfl | cases hworks
  rw [Pool.halted_eq hcfg h hp, hsafe, hfree] at hstuck
  simpa using hstuck

end Steps

/-- A pool whose token is cancelled winds down. Every schedule from there on costs no
more steps of dispatchers, submissions and wrappers, polls in vain apart, than `toGo`
counts at its start, and one for each later call of `submit`. When none of them can take
a step, and none aborts, all dispatchers and wrappers have ended, every accepted task is
settled and all concurrency permits are back. -/
theorem pool_winds_down (σ R : Type) [Semaphore σ] (cfg : PoolConfig) (hcfg : cfg.Built)
    (s s' : Pool σ R) (as : List (PoolEvent R))
    (h : (poolMachine σ R cfg).Reachable Machine.anyStep s) (htoken : s.shared.token = true)
    (hrun : (poolMachine σ R cfg).exec (fun _ _ => true) as s = some s') :
    (poolMachine σ R cfg).spent effort as s + s'.toGo cfg ≤
        s.toGo cfg + (as.map PoolEvent.submissions).sum ∧
      (s'.stopped cfg = true → Quiescent s' ∧
        (∀ t, (s'.shared.tasks t).accepted = true →
          (s'.shared.tasks t).sender.settled = true) ∧
        permits s'.shared.concurrencyGate = cfg.permits) := by
  refine ⟨?_, fun hstopped => ?_⟩
  · refine Machine.spent_le
      (I := fun s => (poolMachine σ R cfg).Reachable Machine.anyStep s ∧ s.shared.token = true)
      ?_ ⟨h, htoken⟩ hrun
    rintro s a s' ⟨hreach, hset⟩ - hstep
    obtain ⟨hset', hfalls⟩ := Pool.toGo_step hreach hset hstep
    exact ⟨⟨hreach.tail trivial hstep, hset'⟩, hfalls⟩
  · have hreach := h.trans (Machine.steps_of_exec hrun).any
    have hended (pid : Nat) (p : Proc R) (hp : s'.At pid p) (hworks : p.working = true) :=
      ended_of_stopped hcfg hreach hstopped hp hworks
    have hquiescent : Quiescent s' := by
      intro p hp
      obtain ⟨pid, hpid⟩ := List.getElem?_of_mem hp
      cases p with
      | loop d => exact hended pid _ hpid rfl
      | wrapper w => exact hended pid _ hpid rfl
      | _ => rfl
    have hnone : s'.tally Proc.permits = 0 := by
      refine Threads.tally_eq_zero fun pid p hp => ?_
      cases hworks : p.working with
      | true => exact Proc.permits_of_ended (hended pid p hp hworks)
      | false =>
        cases p <;> first | rfl | cases hworks
    have hconserved := permits_conserved hreach
    exact ⟨hquiescent, fun t ht => hquiescent.settled hreach ht, by omega⟩

/-- A task waits in the queue when a `shutdown` call cancels the token. -/
def caughtWaiting : Pool FairSemaphore Nat :=
  (poolMachine FairSemaphore Nat (.manager 1 1 "pool")).after (fun _ _ => true)
    (.call (.submit 0 ∅ (.ready 7)) :: stepping [1, 1, 1, 1, 1, 1, 1, 1] ++
      .call (.clone 0) :: .call (.shutdown 0 .graceful) :: stepping [2, 2])
    (Pool.new _ _ (.manager 1 1 "pool"))

/-- The dispatcher drops it and leaves. -/
def woundDown : Pool FairSemaphore Nat :=
  (poolMachine FairSemaphore Nat (.manager 1 1 "pool")).after (fun _ _ => true)
    (stepping [0, 0, 0, 0]) caughtWaiting

theorem pool_winds_down_waiting :
    (poolMachine FairSemaphore Nat (.manager 1 1 "pool")).spent effort (stepping [0, 0, 0, 0])
        caughtWaiting + woundDown.toGo (.manager 1 1 "pool") ≤ 4 ∧
      Quiescent woundDown ∧ (woundDown.shared.tasks 0).sender.settled = true := by
  obtain ⟨hspent, hlast⟩ := pool_winds_down FairSemaphore Nat (.manager 1 1 "pool")
    (.inl ⟨1, 1, "pool", rfl⟩) caughtWaiting woundDown (stepping [0, 0, 0, 0])
    (Machine.steps_after _ _ _ _).any rfl rfl
  obtain ⟨hquiescent, hsettled, -⟩ := hlast (by decide)
  exact ⟨hspent.trans (by decide), hquiescent, hsettled 0 rfl⟩

end FuturesOrchestra
