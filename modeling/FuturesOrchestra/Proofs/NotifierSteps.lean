import FuturesOrchestra.NotifierWorker

/-!
# What a step of the notifier can be

The inversion lemmas of the notification worker and of the calls next to it, and what holds in
all their runs: the guards are those that the threads account for, there is at most one worker,
and nobody but the worker touches what it has taken and done.
-/

namespace FuturesOrchestra

open Interleaving

variable {cfg : PoolConfig} {core : Nat → TaskCore} {body : Nat → List ManagerCall}
  {pid : Nat} {sh sh' : NotifierState} {sp : Option NotifierProc}

/-! ## Guards -/

/-- The guards that a thread holds at this point of a call. -/
def CallPc.holds : CallPc → List (LockName × GuardMode)
  | .initLock _ | .cellHeld _ => [(.cell, .write)]
  | .initHeld _ => [(.init, .write), (.cell, .write)]
  | .nameHeld _ | .takeHeld => [(.init, .write)]
  | .writeHeld _ => [(.handlers, .write)]
  | .sweepHeld i => [(.registry i, .read)]
  | .countHeld => [(.registry 0, .read)]
  | .modifyHeld i => [(.registry i, .write)]
  | _ => []

/-- The guards that a thread holds. -/
def NotifierProc.holds : NotifierProc → List (LockName × GuardMode)
  | .worker ⟨_, .deliver _ _⟩ => [(.handlers, .read)]
  | .worker ⟨_, .body _ _ call _⟩ => (.handlers, .read) :: call.holds
  | .worker _ => []
  | .caller pc => pc.holds

theorem NotifierState.acquire_eq_some {lock : LockName} {mode : GuardMode}
    (h : sh.acquire pid lock mode = some sh') : Guard.free sh.guards lock mode = true ∧
      sh' = { sh with guards := ⟨pid, lock, mode⟩ :: sh.guards } := by
  unfold acquire at h
  split at h
  · next hfree => exact ⟨hfree, (Option.some.inj h).symm⟩
  · cases h

theorem CallPc.guardStep {pc pc' : CallPc} (h : pc.step cfg pid sh = some (sh', pc', sp)) :
    GuardStep pid sh.guards pc.holds sh'.guards pc'.holds := by
  revert h
  fun_cases CallPc.step cfg pid sh pc
  all_goals intro h
  -- a step that takes a guard
  all_goals try
    obtain ⟨sh₁, hacquire, heq⟩ := Option.map_eq_some_iff.mp h
    obtain ⟨hfree, rfl⟩ := NotifierState.acquire_eq_some hacquire
    cases heq
    exact .acquire hfree fun x => by simp [holds]
  all_goals cases h
  -- a step that gives one back
  all_goals first
    | exact .keep fun x => Iff.rfl
    | exact .release (by simp [holds]) fun x => by
        simp only [holds, List.mem_cons, List.not_mem_nil]
        grind

theorem CallPc.not_mem_holds (pc : CallPc) : (LockName.handlers, GuardMode.read) ∉ pc.holds := by
  cases pc <;> simp [holds]

theorem ManagerCall.start_holds (c : ManagerCall) (kind : PoolKind) :
    (c.start kind).holds = [] := by
  cases c with
  | cancelTasksByLabels labels =>
    show (if labels = ∅ then CallPc.returned else .sweep 0).holds = []
    split <;> rfl
  | activeTaskCount => cases kind <;> rfl
  | _ => rfl

/-- The call is about to start a worker. -/
def CallPc.starting : CallPc → Nat
  | .initLock _ | .initHeld _ => 1
  | _ => 0

theorem ManagerCall.start_starting (c : ManagerCall) (kind : PoolKind) :
    (c.start kind).starting = 0 := by
  cases c with
  | cancelTasksByLabels labels =>
    show (if labels = ∅ then CallPc.returned else .sweep 0).starting = 0
    split <;> rfl
  | activeTaskCount => cases kind <;> rfl
  | _ => rfl

/-- A call touches nothing that the worker has taken or done, and the list only grows. -/
structure NotifierState.Beside (sh sh' : NotifierState) : Prop where
  sent : sh'.sent = sh.sent
  taken : sh'.taken = sh.taken
  invocations : sh'.invocations = sh.invocations
  handlers : ∃ more, sh'.handlers = sh.handlers ++ more

theorem CallPc.beside {pc pc' : CallPc} (h : pc.step cfg pid sh = some (sh', pc', sp)) :
    sh.Beside sh' := by
  revert h
  fun_cases CallPc.step cfg pid sh pc
  all_goals intro h
  all_goals first
    | (cases h
       exact ⟨rfl, rfl, rfl, _, rfl⟩)
    | (cases h
       exact ⟨rfl, rfl, rfl, [], (List.append_nil _).symm⟩)
    | (obtain ⟨sh₁, hacquire, heq⟩ := Option.map_eq_some_iff.mp h
       obtain ⟨-, rfl⟩ := NotifierState.acquire_eq_some hacquire
       cases heq
       exact ⟨rfl, rfl, rfl, [], (List.append_nil _).symm⟩)
    | cases h

/-- A call starts at most the worker. -/
theorem CallPc.started {pc pc' : CallPc} {q : NotifierProc}
    (h : pc.step cfg pid sh = some (sh', pc', some q)) :
    q = .worker ⟨false, .recv⟩ ∧ ∃ h, pc = .initHeld h := by
  revert h
  fun_cases CallPc.step cfg pid sh pc
  case case4 =>
    rintro ⟨⟩
    exact ⟨rfl, _, rfl⟩
  all_goals intro h
  all_goals first
    | cases h
    | (obtain ⟨_, -, heq⟩ := Option.map_eq_some_iff.mp h
       cases heq)

/-- Only the initialiser opens the channel. -/
theorem CallPc.senders_kept {pc pc' : CallPc} (h : pc.step cfg pid sh = some (sh', pc', sp))
    (hpc : pc.starting = 0) : sh'.senders = sh.senders ∧ sp = none := by
  revert h
  fun_cases CallPc.step cfg pid sh pc
  case case4 => cases hpc
  all_goals intro h
  all_goals first
    | (cases h
       exact ⟨rfl, rfl⟩)
    | (obtain ⟨sh₁, hacquire, heq⟩ := Option.map_eq_some_iff.mp h
       obtain ⟨-, rfl⟩ := NotifierState.acquire_eq_some hacquire
       cases heq
       exact ⟨rfl, rfl⟩)
    | cases h

/-- The rules of `run_notification_worker_loop`. -/
inductive WorkerStep (cfg : PoolConfig) (core : Nat → TaskCore) (body : Nat → List ManagerCall)
    (pid : Nat) (sh : NotifierState) (w : WorkerLoop) :
    NotifierState → WorkerLoop → Option NotifierProc → Prop
  | recv {msg} (hpc : w.pc = .recv) (hmsg : sh.sent[sh.taken]? = some msg) :
      WorkerStep cfg core body pid sh w { sh with taken := sh.taken + 1 } (w.goto (.lock msg)) none
  | closed (hpc : w.pc = .recv) (hmsg : sh.sent[sh.taken]? = none) (hsenders : sh.senders = 0) :
      WorkerStep cfg core body pid sh w { sh with workerDone := true } (w.goto .ended) none
  | empty (hpc : w.pc = .recv) (hmsg : sh.sent[sh.taken]? = none) (hsenders : sh.senders ≠ 0) :
      WorkerStep cfg core body pid sh w sh (w.goto .token) none
  | token (hpc : w.pc = .token) :
      WorkerStep cfg core body pid sh w sh
        { w with signaled := w.signaled || sh.token, pc := .recv } none
  | lock {msg} (hpc : w.pc = .lock msg) (hfree : Guard.free sh.guards .handlers .read = true) :
      WorkerStep cfg core body pid sh w { sh with guards := ⟨pid, .handlers, .read⟩ :: sh.guards }
        (w.goto (.deliver (msg.publicInfo (core msg.core)) sh.handlers)) none
  | invoke {info h rest} (hpc : w.pc = .deliver info (h :: rest)) :
      WorkerStep cfg core body pid sh w
        { sh with invocations := sh.invocations ++ [(h, info)] }
        (w.goto (.body info rest .returned (body h))) none
  | delivered {info} (hpc : w.pc = .deliver info []) :
      WorkerStep cfg core body pid sh w (sh.release pid .handlers .read) (w.goto .recv) none
  | start {info rest c calls} (hpc : w.pc = .body info rest .returned (c :: calls)) :
      WorkerStep cfg core body pid sh w sh (w.goto (.body info rest (c.start cfg.kind) calls)) none
  | finish {info rest} (hpc : w.pc = .body info rest .returned []) :
      WorkerStep cfg core body pid sh w sh (w.goto (.deliver info rest)) none
  | call {info rest call calls sh' call' sp} (hpc : w.pc = .body info rest call calls)
      (hcall : call.step cfg pid sh = some (sh', call', sp)) :
      WorkerStep cfg core body pid sh w sh' (w.goto (.body info rest call' calls)) sp

theorem WorkerStep.of_step {w w' : WorkerLoop} (h : w.step cfg core body pid sh = some (sh', w', sp)) :
    WorkerStep cfg core body pid sh w sh' w' sp := by
  revert h
  fun_cases WorkerLoop.step cfg core body pid sh w
  case case1 hpc msg hmsg =>
    rintro ⟨⟩
    exact .recv hpc hmsg
  case case2 hpc hmsg hsenders =>
    rintro ⟨⟩
    exact .closed hpc hmsg hsenders
  case case3 hpc hmsg hsenders =>
    rintro ⟨⟩
    exact .empty hpc hmsg hsenders
  case case4 hpc =>
    rintro ⟨⟩
    exact .token hpc
  case case5 msg hpc =>
    intro h
    obtain ⟨sh₁, hacquire, heq⟩ := Option.map_eq_some_iff.mp h
    obtain ⟨hfree, rfl⟩ := NotifierState.acquire_eq_some hacquire
    cases heq
    exact .lock hpc hfree
  case case6 hpc =>
    rintro ⟨⟩
    exact .invoke hpc
  case case7 hpc =>
    rintro ⟨⟩
    exact .delivered hpc
  case case8 hpc =>
    rintro ⟨⟩
    exact .start hpc
  case case9 hpc =>
    rintro ⟨⟩
    exact .finish hpc
  case case10 hpc =>
    intro h
    obtain ⟨⟨sh₁, call', sp₁⟩, hcall, heq⟩ := Option.map_eq_some_iff.mp h
    cases heq
    exact .call hpc hcall
  case case11 | case12 => rintro ⟨⟩

theorem WorkerStep.guardStep {w w' : WorkerLoop} (h : WorkerStep cfg core body pid sh w sh' w' sp) :
    GuardStep pid sh.guards (NotifierProc.worker w).holds sh'.guards
      (NotifierProc.worker w').holds := by
  obtain ⟨signaled, pc⟩ := w
  cases h with
  | recv hpc | closed hpc | empty hpc | token hpc =>
    obtain rfl : pc = _ := hpc
    exact .keep fun x => Iff.rfl
  | lock hpc hfree =>
    obtain rfl : pc = _ := hpc
    exact .acquire hfree fun x => List.mem_cons
  | invoke hpc | finish hpc =>
    obtain rfl : pc = _ := hpc
    exact .keep fun x => Iff.rfl
  | @start info rest c calls hpc =>
    obtain rfl : pc = _ := hpc
    refine .keep fun x => ?_
    show x ∈ (LockName.handlers, GuardMode.read) :: (c.start cfg.kind).holds ↔ _
    rw [ManagerCall.start_holds]
    rfl
  | delivered hpc =>
    obtain rfl : pc = _ := hpc
    exact .release List.mem_cons_self fun x => by simp [NotifierProc.holds, WorkerLoop.goto]
  | call hpc hcall =>
    obtain rfl : pc = _ := hpc
    exact (CallPc.guardStep hcall).frame (CallPc.not_mem_holds _)

/-- What a step of a thread is: a step of the worker, a panic in it that it outlives or one that
ends it, or a step of a call. -/
inductive NotifierProc.Step (cfg : PoolConfig) (core : Nat → TaskCore)
    (body : Nat → List ManagerCall) (b : WorkerSignal) (pid : Nat) (sh : NotifierState) :
    NotifierProc → NotifierState → NotifierProc → Option NotifierProc → Prop
  | worker {w sh' w' sp} (hstep : WorkerStep cfg core body pid sh w sh' w' sp) :
      Step cfg core body b pid sh (.worker w) sh' (.worker w') sp
  | panic {w info rest calls} (hpc : w.pc = .body info rest .returned calls) :
      Step cfg core body b pid sh (.worker w) sh (.worker (w.goto (.deliver info rest))) none
  | unwind {w info rest calls} (hb : b = .panic true)
      (hpc : w.pc = .body info rest .returned calls) :
      Step cfg core body b pid sh (.worker w)
        { sh.release pid .handlers .read with workerDone := true } (.worker (w.goto .unwound)) none
  | caller {pc sh' pc' sp} (hstep : pc.step cfg pid sh = some (sh', pc', sp)) :
      Step cfg core body b pid sh (.caller pc) sh' (.caller pc') sp

theorem NotifierProc.step_of_run {b : WorkerSignal} {p p' : NotifierProc}
    (h : NotifierProc.run cfg core body b pid sh p = some (sh', p', sp)) :
    Step cfg core body b pid sh p sh' p' sp := by
  revert h
  fun_cases NotifierProc.run cfg core body b pid sh p
  all_goals intro h
  case case1 w =>
    obtain ⟨⟨sh₁, w', sp₁⟩, hstep, heq⟩ := Option.map_eq_some_iff.mp h
    cases heq
    exact .worker (.of_step hstep)
  case case2 dropPanics w =>
    obtain ⟨⟨sh₁, w'⟩, hpanic, heq⟩ := Option.map_eq_some_iff.mp h
    cases heq
    revert hpanic
    fun_cases WorkerLoop.panicked pid sh w dropPanics
    case case1 hpc hdrop =>
      rintro ⟨⟩
      exact .unwind (congrArg WorkerSignal.panic hdrop) hpc
    case case2 hpc _ =>
      rintro ⟨⟩
      exact .panic hpc
    case case3 => rintro ⟨⟩
  case case3 pc =>
    obtain ⟨⟨sh₁, pc', sp₁⟩, hstep, heq⟩ := Option.map_eq_some_iff.mp h
    cases heq
    exact .caller hstep
  case case4 => cases h

theorem NotifierProc.Step.guardStep {b : WorkerSignal} {p p' : NotifierProc}
    (h : Step cfg core body b pid sh p sh' p' sp) :
    GuardStep pid sh.guards p.holds sh'.guards p'.holds := by
  cases h with
  | worker hstep => exact hstep.guardStep
  | @panic w info rest calls hpc =>
    obtain ⟨signaled, pc⟩ := w
    obtain rfl : pc = _ := hpc
    exact .keep fun x => Iff.rfl
  | @unwind w info rest calls hb hpc =>
    obtain ⟨signaled, pc⟩ := w
    obtain rfl : pc = _ := hpc
    exact .release List.mem_cons_self fun x => by
      simp [NotifierProc.holds, WorkerLoop.goto, CallPc.holds]
  | caller hstep => exact CallPc.guardStep hstep

/-- A step starts at most the worker. -/
theorem NotifierProc.Step.started {b : WorkerSignal} {p p' q : NotifierProc}
    (h : Step cfg core body b pid sh p sh' p' (some q)) : q = .worker ⟨false, .recv⟩ := by
  cases h with
  | worker hstep =>
    cases hstep with
    | call _ hcall => exact (CallPc.started hcall).1
  | caller hstep => exact (CallPc.started hstep).1

/-- A call of the environment starts a call at its beginning, and touches no lock. -/
theorem NotifierCall.enter_idle {c : NotifierCall} {kind : PoolKind}
    (h : c.enter kind sh = some (sh', sp)) :
    sh'.guards = sh.guards ∧ sh'.initialized = sh.initialized ∧
      ∀ q, sp = some q → ∃ pc, q = .caller pc ∧ pc.holds = [] ∧ pc.starting = 0 := by
  revert h
  fun_cases NotifierCall.enter kind sh c
  all_goals rintro ⟨⟩
  all_goals refine ⟨rfl, rfl, ?_⟩
  all_goals rintro q ⟨⟩
  · exact ⟨_, rfl, ManagerCall.start_holds _ _, ManagerCall.start_starting _ _⟩
  · exact ⟨_, rfl, rfl, rfl⟩
  · exact ⟨_, rfl, rfl, rfl⟩

section Runs

variable {s s' : NotifierSystem} {ok : NotifierSystem → NotifierEvent → Prop}
  {p p' : NotifierProc}

/-- In every run the guards are those that the threads hold. -/
theorem guarded (h : (notifierMachine cfg core body).Reachable ok s) :
    Guarded NotifierState.guards NotifierProc.holds s := by
  refine Program.induct (I := Guarded NotifierState.guards NotifierProc.holds) ?_ ?_ h ?_
  · intro s b pid p sh p' sp hs _ hp hrun
    have hstep := NotifierProc.step_of_run hrun
    refine hs.update hp hstep.guardStep ?_
    rintro q rfl
    rw [hstep.started]
    rfl
  · intro s c sh sp hs _ hcall
    obtain ⟨hguards, -, hnew⟩ := NotifierCall.enter_idle hcall
    refine hs.spawn hguards fun q hq => ?_
    obtain ⟨pc, rfl, hholds, -⟩ := hnew q hq
    exact hholds
  · refine ⟨fun g hg => (nomatch hg), fun pid p x hp => (nomatch hp), fun g hg => (nomatch hg)⟩

end Runs

/-! ## One worker -/

/-- The call that the thread has in progress. -/
def NotifierProc.call : NotifierProc → CallPc
  | .worker ⟨_, .body _ _ call _⟩ => call
  | .worker _ => .returned
  | .caller pc => pc

/-- The workers that the thread is, or is about to start. -/
def NotifierProc.workers (p : NotifierProc) : Nat :=
  match p with
  | .worker _ => 1 + p.call.starting
  | .caller _ => p.call.starting

/-- The initialiser of the `OnceLock` has been entered. -/
def NotifierState.entered (sh : NotifierState) : Nat :=
  if sh.initialized || sh.guards.any (·.lock == .cell) then 1 else 0

theorem NotifierState.entered_le (sh : NotifierState) : sh.entered ≤ 1 := by
  unfold entered
  split
  · exact le_rfl
  · exact Nat.zero_le 1

theorem NotifierState.entered_acquire (g : Guard LockName) :
    sh.entered ≤ { sh with guards := g :: sh.guards : NotifierState }.entered := by
  unfold entered
  show (if sh.initialized || sh.guards.any _ then 1 else 0) ≤
    (if sh.initialized || (g :: sh.guards).any _ then 1 else 0)
  rw [List.any_cons, Bool.or_left_comm]
  cases g.lock == .cell with
  | true =>
    rw [Bool.true_or, if_pos rfl]
    split
    · exact le_rfl
    · exact Nat.zero_le 1
  | false => rw [Bool.false_or]

theorem NotifierState.entered_release {lock : LockName} (hlock : lock ≠ .cell) (mode : GuardMode) :
    (sh.release pid lock mode).entered = sh.entered := by
  have hguards : (sh.release pid lock mode).guards.any (·.lock == .cell) =
      sh.guards.any (·.lock == .cell) := by
    show (sh.guards.filter _).any _ = _
    rw [List.any_filter]
    refine List.any_congr rfl fun g => ?_
    cases hcell : g.lock == LockName.cell with
    | false => rw [Bool.and_false]
    | true =>
      rw [Bool.and_true, decide_eq_true_iff]
      rintro rfl
      exact hlock (eq_of_beq hcell)
  unfold entered
  rw [hguards]
  rfl

/-- A step makes no more workers than it enters initialisers. -/
theorem CallPc.workers_step {pc pc' : CallPc} (h : pc.step cfg pid sh = some (sh', pc', sp)) :
    pc'.starting + Threads.started NotifierProc.workers sp + sh.entered ≤
      pc.starting + sh'.entered := by
  revert h
  fun_cases CallPc.step cfg pid sh pc
  all_goals intro h
  case case2 handler hinit =>
    obtain ⟨sh₁, hacquire, heq⟩ := Option.map_eq_some_iff.mp h
    obtain ⟨hfree, rfl⟩ := NotifierState.acquire_eq_some hacquire
    cases heq
    -- nobody is in the initialiser while its guard is free
    have hbefore : sh.entered = 0 := by
      have hnone : sh.guards.any (·.lock == .cell) = false := by
        rw [List.any_eq_false]
        intro g hg hcell
        have hcompatible := List.all_eq_true.mp hfree g hg
        rw [← eq_of_beq hcell] at hcompatible
        cases (Guard.compatible_self.mp hcompatible).2
      rw [NotifierState.entered, hnone]
      simpa using hinit
    rw [hbefore]
    simp [starting, NotifierState.entered]
  case case5 handler =>
    cases h
    show 0 + 0 + sh.entered ≤ 0 + 1
    simpa using sh.entered_le
  all_goals try
    obtain ⟨sh₁, hacquire, heq⟩ := Option.map_eq_some_iff.mp h
    obtain ⟨-, rfl⟩ := NotifierState.acquire_eq_some hacquire
    cases heq
    simpa [starting] using NotifierState.entered_acquire _
  case case4 handler =>
    cases h
    show 0 + 1 + sh.entered ≤ 1 + (sh.release pid .init .write).entered
    rw [NotifierState.entered_release (by nofun)]
  all_goals cases h
  all_goals first
    | exact Nat.le_refl _
    | (show 0 + 0 + sh.entered ≤ 0 + (sh.release pid _ _).entered
       rw [NotifierState.entered_release (by nofun)])

theorem NotifierProc.Step.workers {b : WorkerSignal} {p p' : NotifierProc}
    (h : Step cfg core body b pid sh p sh' p' sp) :
    p'.workers + Threads.started NotifierProc.workers sp + sh.entered ≤ p.workers + sh'.entered := by
  cases h with
  | @worker w _ w' _ hstep =>
    obtain ⟨signaled, pc⟩ := w
    cases hstep with
    | recv hpc | closed hpc | empty hpc | token hpc | invoke hpc | finish hpc =>
      obtain rfl : pc = _ := hpc
      exact Nat.le_refl _
    | @start info rest c calls hpc =>
      obtain rfl : pc = _ := hpc
      show 1 + (c.start cfg.kind).starting + 0 + sh.entered ≤ 1 + 0 + sh.entered
      rw [ManagerCall.start_starting]
    | lock hpc hfree =>
      obtain rfl : pc = _ := hpc
      exact Nat.add_le_add_left (NotifierState.entered_acquire _) 1
    | delivered hpc =>
      obtain rfl : pc = _ := hpc
      exact Nat.add_le_add_left (NotifierState.entered_release (by nofun) _).ge 1
    | @call info rest call calls _ call' _ hpc hcall =>
      obtain rfl : pc = _ := hpc
      have hle := CallPc.workers_step hcall
      show 1 + call'.starting + Threads.started _ sp + sh.entered ≤ 1 + call.starting + sh'.entered
      omega
  | @panic w info rest calls hpc =>
    obtain ⟨signaled, pc⟩ := w
    obtain rfl : pc = _ := hpc
    exact Nat.le_refl _
  | @unwind w info rest calls hb hpc =>
    obtain ⟨signaled, pc⟩ := w
    obtain rfl : pc = _ := hpc
    exact Nat.add_le_add_left (NotifierState.entered_release (by nofun) _).ge 1
  | caller hstep => exact CallPc.workers_step hstep

section Sole

variable {s s' : NotifierSystem} {ok : NotifierSystem → NotifierEvent → Prop}
  {p p' : NotifierProc}

/-- In every run there is at most one worker, or one about to be started. -/
theorem workers_le (h : (notifierMachine cfg core body).Reachable ok s) :
    s.tally NotifierProc.workers ≤ 1 := by
  have hbound : 0 + s.tally NotifierProc.workers ≤ s.shared.entered := by
    refine Program.bounded (f := fun _ => 0) (k := NotifierState.entered)
      (g := NotifierProc.workers) ?_ ?_ h (Nat.zero_le _)
    · intro b pid sh p sh' p' sp hrun
      have hle := (NotifierProc.step_of_run hrun).workers
      omega
    · intro c sh sh' sp hcall
      obtain ⟨hguards, hinit, hnew⟩ := NotifierCall.enter_idle hcall
      have hentered : sh'.entered = sh.entered := by
        rw [NotifierState.entered, hguards, hinit]
        rfl
      have hnone : Threads.started NotifierProc.workers sp = 0 := by
        cases sp with
        | none => rfl
        | some q =>
          obtain ⟨pc, rfl, -, hstarting⟩ := hnew q rfl
          exact hstarting
      omega
  have hentered := s.shared.entered_le
  omega

theorem sole_worker {w w' : WorkerLoop} {qid : Nat}
    (h : (notifierMachine cfg core body).Reachable ok s) (hw : s.At pid (.worker w))
    (hw' : s.At qid (.worker w')) : pid = qid := by
  by_contra hne
  have hle := Threads.add_le_tally (g := NotifierProc.workers) hne hw hw'
  have hbound := workers_le h
  simp only [NotifierProc.workers] at hle
  omega

end Sole

end FuturesOrchestra
