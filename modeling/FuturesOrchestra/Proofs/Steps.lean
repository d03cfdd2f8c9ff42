import FuturesOrchestra.Proofs.LoopStep
import FuturesOrchestra.Proofs.WrapperStep
import FuturesOrchestra.Proofs.CallStep

/-!
# What a step of the pool can be

`Proc.Step` names the code a process step runs, and `Proc.step_of_run` is the
inversion lemma the invariants start from. The calls that no task passes through
(`shutdown`, the `Drop` of a handle, label cancellation, handler registration)
and the notification worker are the bystanders: `Quiet` says what they leave
alone, so that an invariant about tasks, permits or slots has one case for all
of them and for the start of a call.
-/

namespace FuturesOrchestra

open Interleaving

variable {σ R : Type} {cfg : PoolConfig} {pid t : Nat}
  {sh sh' : Shared σ R} {sp : Option (Proc R)}

theorem Next.toProc_eq_some {L : Type} {f : L → Proc R} {next : Next σ R L} {p : Proc R}
    (h : next.toProc f = some (sh', p, sp)) : ∃ l, next = some (sh', l, sp) ∧ p = f l := by
  simp only [Next.toProc, Option.map_eq_some_iff] at h
  obtain ⟨⟨_, l, _⟩, hnext, heq⟩ := h
  cases heq
  exact ⟨l, hnext, rfl⟩

/-! ## Bystanders -/

/-- A process that never holds a task, a permit or a queue slot. -/
def Proc.bystander : Proc R → Prop
  | .submit _ | .loop _ | .wrapper _ => False
  | _ => True

/-- What a step that concerns no task may do to one: request its cancellation,
or drop its handle. -/
inductive Task.Touched : Task R → Task R → Prop
  | refl (task : Task R) : Touched task task
  | cancel (task : Task R) : Touched task task.cancel
  | dropReceiver (task : Task R) : Touched task task.dropReceiver

/-- What a step that concerns no task leaves alone. -/
structure Shared.Quiet (sh sh' : Shared σ R) : Prop where
  concurrencyGate : sh'.concurrencyGate = sh.concurrencyGate
  queueGate : sh'.queueGate = sh.queueGate
  lanes : sh'.lanes = sh.lanes
  nextLane : sh'.nextLane = sh.nextLane
  active : sh'.active = sh.active
  shards : sh'.shards = sh.shards
  nextTaskId : sh'.nextTaskId = sh.nextTaskId
  tasks : ∀ t, ((sh.tasks t).Touched (sh'.tasks t))
  token : sh.token = true → sh'.token = true

namespace Shared.Quiet

theorem modifyTask {f : Task R → Task R} (t : Nat) (hf : ∀ task, Task.Touched task (f task)) :
    sh.Quiet (sh.modifyTask t f) where
  concurrencyGate := rfl
  queueGate := rfl
  lanes := rfl
  nextLane := rfl
  active := rfl
  shards := rfl
  nextTaskId := rfl
  tasks u := by
    by_cases hu : u = t
    · simpa [hu] using hf (sh.tasks t)
    · simpa [hu] using Task.Touched.refl (sh.tasks u)
  token := id

/-- A change of the other fields is quiet. -/
theorem of_eq (hgate : sh'.concurrencyGate = sh.concurrencyGate)
    (hqueue : sh'.queueGate = sh.queueGate) (hlanes : sh'.lanes = sh.lanes)
    (hnext : sh'.nextLane = sh.nextLane) (hactive : sh'.active = sh.active)
    (hshards : sh'.shards = sh.shards) (hid : sh'.nextTaskId = sh.nextTaskId)
    (htasks : sh'.tasks = sh.tasks) (htoken : sh.token = true → sh'.token = true) :
    sh.Quiet sh' :=
  ⟨hgate, hqueue, hlanes, hnext, hactive, hshards, hid, fun _ => htasks ▸ .refl _, htoken⟩

theorem of_drop {closed closed' : Bool} {pc pc' : DropPc}
    (h : DropStep sh closed pc sh' closed' pc') : sh.Quiet sh' := by
  cases h <;> exact of_eq rfl rfl rfl rfl rfl rfl rfl rfl (fun h => by first | exact h | rfl)

end Shared.Quiet

/-- A bystander is quiet and starts no process that could hold anything. -/
def Bystanding (sh sh' : Shared σ R) (sp : Option (Proc R)) : Prop :=
  sh.Quiet sh' ∧ ∀ q, sp = some q → q.bystander

/-- `Proc.CallStep cfg b pid sh p sh' p' sp`: a step of a bystander. -/
inductive Proc.CallStep (cfg : PoolConfig) (b : Signal) (pid : Nat) (sh : Shared σ R) :
    Proc R → Shared σ R → Proc R → Option (Proc R) → Prop
  | shutdown {c sh' c'} (hstep : ShutdownStep cfg b sh c sh' c') :
      CallStep cfg b pid sh (.shutdown c) sh' (.shutdown c') none
  | drop {c pc sh' closed pc'} (hpc : c.pc = pc) (hstep : DropStep sh c.closed pc sh' closed pc') :
      CallStep cfg b pid sh (.drop c) sh' (.drop { c with closed := closed, pc := pc' }) none
  | labelCancel {c sh' c'} (hstep : LabelCancelStep cfg sh c sh' c') :
      CallStep cfg b pid sh (.labelCancel c) sh' (.labelCancel c') none
  | addHandler {c sh' c' sp} (hstep : AddHandlerStep pid sh c sh' c' sp) :
      CallStep cfg b pid sh (.addHandler c) sh' (.addHandler c') sp
  | notifier {n sh' n'} (hstep : NotifierStep b sh n sh' n') :
      CallStep cfg b pid sh (.notifier n) sh' (.notifier n') none

namespace Bystanding

theorem none (h : sh.Quiet sh') : Bystanding sh sh' none := ⟨h, by rintro q ⟨⟩⟩

theorem shutdown {b : Signal} {c c' : ShutdownCall} (h : ShutdownStep cfg b sh c sh' c') :
    sh.Quiet sh' := by
  cases h with
  | cancelTask => exact .modifyTask _ .cancel
  | dropSelf _ hdrop => exact .of_drop hdrop
  | _ => exact .of_eq rfl rfl rfl rfl rfl rfl rfl rfl (fun h => by first | exact h | rfl)

theorem labelCancel {c c' : LabelCancelCall} (h : LabelCancelStep cfg sh c sh' c') :
    sh.Quiet sh' := by
  cases h with
  | cancelTask => exact .modifyTask _ .cancel
  | _ => exact .of_eq rfl rfl rfl rfl rfl rfl rfl rfl id

theorem addHandler {c c' : AddHandlerCall} (h : AddHandlerStep pid sh c sh' c' sp) :
    Bystanding sh sh' sp := by
  cases h with
  | init =>
    refine ⟨.of_eq rfl rfl rfl rfl rfl rfl rfl rfl id, ?_⟩
    rintro q ⟨⟩
    exact True.intro
  | _ => exact none (.of_eq rfl rfl rfl rfl rfl rfl rfl rfl id)

theorem notifier {b : Signal} {n n' : NotifierLoop} (h : NotifierStep b sh n sh' n') : sh.Quiet sh' := by
  cases h <;> exact .of_eq rfl rfl rfl rfl rfl rfl rfl rfl id

theorem call {b : Signal} {p p' : Proc R} (h : Proc.CallStep cfg b pid sh p sh' p' sp) :
    p.bystander ∧ p'.bystander ∧ Bystanding sh sh' sp := by
  cases h with
  | shutdown hstep => exact ⟨True.intro, True.intro, none (shutdown hstep)⟩
  | drop _ hstep => exact ⟨True.intro, True.intro, none (.of_drop hstep)⟩
  | labelCancel hstep => exact ⟨True.intro, True.intro, none (labelCancel hstep)⟩
  | addHandler hstep => exact ⟨True.intro, True.intro, addHandler hstep⟩
  | notifier hstep => exact ⟨True.intro, True.intro, none (notifier hstep)⟩

end Bystanding

/-! ## Inversion -/

section Inversion

variable [Semaphore σ]

/-- `Proc.Step cfg pid sh p sh' p' sp`: a step of process `pid` of the pool. -/
inductive Proc.Step (cfg : PoolConfig) (pid : Nat) (sh : Shared σ R) :
    Proc R → Shared σ R → Proc R → Option (Proc R) → Prop
  | submit {c sh' c' sp} (hstep : SubmitStep cfg.kind pid sh c sh' c' sp) :
      Step cfg pid sh (.submit c) sh' (.submit c') sp
  | loop {d sh' d' sp} (hstep : LoopStep cfg pid sh d sh' d' sp) :
      Step cfg pid sh (.loop d) sh' (.loop d') sp
  | wrapper {w sh' w'} (hstep : WrapperStep cfg sh w sh' w') :
      Step cfg pid sh (.wrapper w) sh' (.wrapper w') none
  | bystander {p sh' p' sp} (hp : p.bystander) (hp' : p'.bystander)
      (hstep : Bystanding sh sh' sp) : Step cfg pid sh p sh' p' sp

/-- A step of the pool is one of a `submit` call, of a loop or of a wrapper, or
one of a bystander. -/
theorem Proc.split_of_run {b : Signal} {p p' : Proc R}
    (h : Proc.run cfg b pid sh p = some (sh', p', sp)) :
    (∃ c c', p = .submit c ∧ p' = .submit c' ∧ SubmitStep cfg.kind pid sh c sh' c' sp) ∨
    (∃ d d', p = .loop d ∧ p' = .loop d' ∧ LoopStep cfg pid sh d sh' d' sp) ∨
    (∃ w w', p = .wrapper w ∧ p' = .wrapper w' ∧ WrapperStep cfg sh w sh' w' ∧ sp = none) ∨
    Proc.CallStep cfg b pid sh p sh' p' sp := by
  revert h
  fun_cases Proc.run cfg b pid sh p
  all_goals intro h
  all_goals first | cases h | obtain ⟨l, hl, rfl⟩ := Next.toProc_eq_some h
  case case1 =>
    refine .inl ⟨_, l, rfl, rfl, ?_⟩
    unfold submitStep at hl
    split at hl
    · next hkind => rw [hkind]; exact .of_submit hl
    · next hkind => rw [hkind]; exact .of_submitInner hl
  case case2 =>
    refine .inr (.inl ⟨_, l, rfl, rfl, ?_⟩)
    unfold loopStep at hl
    split at hl
    · next hkind => exact .of_runWorkerLoop hkind hl
    · next hkind => exact .of_runWorkerLoopRlxd hkind hl
  case case3 =>
    refine .inr (.inr (.inl ⟨_, l, rfl, rfl, ?_⟩))
    unfold wrapperStep at hl
    split at hl
    · next hkind => exact WrapperStep.of_wrapper hkind hl
    · next hkind => exact WrapperStep.of_wrapperRlxd hkind hl
  case case11 => exact .inl ⟨_, l, rfl, rfl, .of_abandonAt hl⟩
  all_goals refine .inr (.inr (.inr ?_))
  case case4 =>
    obtain ⟨hstep, rfl⟩ := NotifierStep.of_step hl
    exact .notifier hstep
  case case5 =>
    obtain ⟨hstep, rfl⟩ := ShutdownStep.of_step hl
    exact .shutdown hstep
  case case6 c =>
    unfold DropCall.step at hl
    split at hl
    · cases hl
    · next hdone =>
      cases hl
      exact .drop rfl (.of_dropManager hdone rfl)
  case case7 =>
    obtain ⟨hstep, rfl⟩ := LabelCancelStep.of_step hl
    exact .labelCancel hstep
  case case8 => exact .addHandler (.of_step hl)
  case case9 =>
    obtain ⟨hstep, hsp⟩ := ShutdownStep.of_timeout hl
    exact hsp ▸ .shutdown hstep
  case case10 =>
    obtain ⟨hstep, hsp⟩ := ShutdownStep.of_abandon hl
    exact hsp ▸ .shutdown hstep
  case case12 =>
    obtain ⟨hstep, hsp⟩ := NotifierStep.of_panicked hl
    exact hsp ▸ .notifier hstep

theorem Proc.step_of_run {b : Signal} {p p' : Proc R}
    (h : Proc.run cfg b pid sh p = some (sh', p', sp)) : Proc.Step cfg pid sh p sh' p' sp := by
  rcases Proc.split_of_run h with ⟨c, c', rfl, rfl, hstep⟩ | ⟨d, d', rfl, rfl, hstep⟩ |
    ⟨w, w', rfl, rfl, hstep, rfl⟩ | hstep
  · exact .submit hstep
  · exact .loop hstep
  · exact .wrapper hstep
  · obtain ⟨hp, hp', hby⟩ := Bystanding.call hstep
    exact .bystander hp hp' hby

/-- A step of a bystander, by its own rules. -/
theorem Proc.callStep_of_run {b : Signal} {p p' : Proc R} (hp : p.bystander)
    (h : Proc.run cfg b pid sh p = some (sh', p', sp)) :
    Proc.CallStep cfg b pid sh p sh' p' sp := by
  rcases Proc.split_of_run h with ⟨c, c', rfl, -⟩ | ⟨d, d', rfl, -⟩ | ⟨w, w', rfl, -⟩ | hstep
  · exact hp.elim
  · exact hp.elim
  · exact hp.elim
  · exact hstep

/-- A step that leaves a bystander, by the rules of the bystander. -/
theorem Proc.callStep_to_bystander {b : Signal} {p p' : Proc R}
    (h : Proc.run cfg b pid sh p = some (sh', p', sp)) (hp' : p'.bystander) :
    Proc.CallStep cfg b pid sh p sh' p' sp := by
  rcases Proc.split_of_run h with ⟨c, c', -, rfl, -⟩ | ⟨d, d', -, rfl, -⟩ | ⟨w, w', -, rfl, -⟩ |
    hstep
  · exact hp'.elim
  · exact hp'.elim
  · exact hp'.elim
  · exact hstep

/-- The step of a `shutdown` call, from its state after the step. -/
theorem Proc.shutdown_of_run {b : Signal} {p : Proc R} {c' : ShutdownCall}
    (h : Proc.run cfg b pid sh p = some (sh', .shutdown c', sp)) :
    ∃ c, p = .shutdown c ∧ ShutdownStep cfg b sh c sh' c' ∧ sp = none := by
  cases Proc.callStep_to_bystander h True.intro with
  | shutdown hstep => exact ⟨_, rfl, hstep, rfl⟩

/-- The step of a registration, from its state after the step. -/
theorem Proc.addHandler_of_run {b : Signal} {p : Proc R} {c' : AddHandlerCall}
    (h : Proc.run cfg b pid sh p = some (sh', .addHandler c', sp)) :
    ∃ c, p = .addHandler c ∧ AddHandlerStep pid sh c sh' c' sp := by
  cases Proc.callStep_to_bystander h True.intro with
  | addHandler hstep => exact ⟨_, rfl, hstep⟩

/-- The step of a label cancellation, from its state after the step. -/
theorem Proc.labelCancel_of_run {b : Signal} {p : Proc R} {c' : LabelCancelCall}
    (h : Proc.run cfg b pid sh p = some (sh', .labelCancel c', sp)) :
    ∃ c, p = .labelCancel c ∧ LabelCancelStep cfg sh c sh' c' ∧ sp = none := by
  cases Proc.callStep_to_bystander h True.intro with
  | labelCancel hstep => exact ⟨_, rfl, hstep, rfl⟩

/-- The step of the notification worker, from its state after the step. -/
theorem Proc.notifier_of_run {b : Signal} {p : Proc R} {n' : NotifierLoop}
    (h : Proc.run cfg b pid sh p = some (sh', .notifier n', sp)) :
    ∃ n, p = .notifier n ∧ NotifierStep b sh n sh' n' ∧ sp = none := by
  cases Proc.callStep_to_bystander h True.intro with
  | notifier hstep => exact ⟨_, rfl, hstep, rfl⟩

/-- The step of a wrapper, from its state after the step. -/
theorem Proc.wrapper_of_run {b : Signal} {p : Proc R} {w' : Wrapper R}
    (h : Proc.run cfg b pid sh p = some (sh', .wrapper w', sp)) :
    ∃ w, p = .wrapper w ∧ WrapperStep cfg sh w sh' w' := by
  rcases Proc.split_of_run h with ⟨_, _, -, heq, -⟩ | ⟨_, _, -, heq, -⟩ |
    ⟨w, _, rfl, heq, hstep, -⟩ | hstep
  · cases heq
  · cases heq
  · cases heq
    exact ⟨w, rfl, hstep⟩
  · cases hstep

/-- The step of a dispatcher loop, from its state after the step. -/
theorem Proc.loop_of_run {b : Signal} {p : Proc R} {d' : DispatcherLoop}
    (h : Proc.run cfg b pid sh p = some (sh', .loop d', sp)) :
    ∃ d, p = .loop d ∧ LoopStep cfg pid sh d sh' d' sp := by
  rcases Proc.split_of_run h with ⟨_, _, -, heq, -⟩ | ⟨d, _, rfl, heq, hstep⟩ |
    ⟨_, _, -, heq, -⟩ | hstep
  · cases heq
  · cases heq
    exact ⟨d, rfl, hstep⟩
  · cases heq
  · cases hstep

/-- The step of a submit call, from its state after the step. -/
theorem Proc.submit_of_run {b : Signal} {p : Proc R} {c' : SubmitCall R}
    (h : Proc.run cfg b pid sh p = some (sh', .submit c', sp)) :
    ∃ c, p = .submit c ∧ SubmitStep cfg.kind pid sh c sh' c' sp := by
  rcases Proc.split_of_run h with ⟨c, _, rfl, heq, hstep⟩ | ⟨_, _, -, heq, -⟩ |
    ⟨_, _, -, heq, -⟩ | hstep
  · cases heq
    exact ⟨c, rfl, hstep⟩
  · cases heq
  · cases heq
  · cases hstep

/-- A process starts nothing but wrappers and the notification worker. -/
theorem Proc.started_of_run {b : Signal} {p p' q : Proc R}
    (h : Proc.run cfg b pid sh p = some (sh', p', some q)) :
    (∃ w, q = .wrapper w) ∨ q = .notifier ⟨false, .recv⟩ := by
  rcases Proc.split_of_run h with ⟨c, c', rfl, rfl, hstep⟩ | ⟨d, d', rfl, rfl, hstep⟩ |
    ⟨w, w', rfl, rfl, -, hsp⟩ | hstep
  · cases hstep
    exact .inl ⟨_, rfl⟩
  · cases hstep
    exact .inl ⟨_, rfl⟩
  · cases hsp
  · cases hstep with
    | addHandler hstep =>
      cases hstep
      exact .inr rfl

end Inversion

/-- What a call of the environment starts. -/
inductive Proc.Fresh : Proc R → Prop
  | bystander {p} (hp : p.bystander) : Fresh p
  | submit (clone : Nat) (labels : Finset TaskLabel) (future : TaskFuture R) :
      Fresh (.submit ⟨clone, labels, future, .checkToken, false⟩)

/-- A call begins quietly. -/
theorem Call.enter_quiet {c : Call R} (h : c.enter sh = some (sh', sp)) :
    sh.Quiet sh' ∧ ∀ q, sp = some q → q.Fresh := by
  revert h
  fun_cases Call.enter sh c
  all_goals rintro ⟨⟩
  all_goals constructor
  all_goals first
    | exact .modifyTask _ .cancel
    | exact .modifyTask _ .dropReceiver
    | exact .of_eq rfl rfl rfl rfl rfl rfl rfl rfl id
    | rintro q ⟨⟩
  all_goals first
    | exact .submit _ _ _
    | exact .bystander trivial

/-- A `shutdown` call begins at its first program point. -/
theorem Call.enter_shutdown {c : Call R} {d : ShutdownCall}
    (h : c.enter sh = some (sh', some (.shutdown d))) :
    d.pc = .readToken ∧ d.closed = false ∧ d.dropped = none := by
  revert h
  fun_cases Call.enter sh c
  all_goals rintro ⟨⟩
  exact ⟨rfl, rfl, rfl⟩

/-- A registration begins at its first program point. -/
theorem Call.enter_addHandler {c : Call R} {d : AddHandlerCall}
    (h : c.enter sh = some (sh', some (.addHandler d))) : d.pc = .init := by
  revert h
  fun_cases Call.enter sh c
  all_goals rintro ⟨⟩
  rfl

/-- A label cancellation begins at its first program point. -/
theorem Call.enter_labelCancel {c : Call R} {d : LabelCancelCall}
    (h : c.enter sh = some (sh', some (.labelCancel d))) : d.pc = .start := by
  revert h
  fun_cases Call.enter sh c
  all_goals rintro ⟨⟩
  rfl

/-! ## Rules -/

section Rules

variable [Semaphore σ] {s s' : Pool σ R} {ok : Pool σ R → PoolEvent R → Prop}

/-- The induction rule of a pool: an invariant is kept by every step of a process
of a reachable state and by every call. -/
theorem Pool.invariant {I : Pool σ R → Prop}
    (hreach : (poolMachine σ R cfg).Reachable Machine.anyStep s)
    (hrun : ∀ {s b pid p sh p' sp}, (poolMachine σ R cfg).Reachable Machine.anyStep s → I s →
      ok s (.run b pid) → s.procs[pid]? = some p →
      Proc.run cfg b pid s.shared p = some (sh, p', sp) → I (s.update pid sh p' sp))
    (hcall : ∀ {s c sh sp}, (poolMachine σ R cfg).Reachable Machine.anyStep s → I s →
      ok s (.call c) → c.enter s.shared = some (sh, sp) → I (s.spawn sh sp))
    (h : (poolMachine σ R cfg).Steps ok s s') (hs : I s) : I s' := by
  have hboth : (poolMachine σ R cfg).Reachable Machine.anyStep s' ∧ I s' := by
    refine h.invariant (I := fun s => (poolMachine σ R cfg).Reachable Machine.anyStep s ∧ I s)
      ?_ ⟨hreach, hs⟩
    rintro s a s' ⟨hr, hi⟩ hok hnext
    refine ⟨hr.tail trivial hnext, ?_⟩
    cases a with
    | run b pid =>
      obtain ⟨p, sh, p', sp, hp, hstep, rfl⟩ := Program.step_run hnext
      exact hrun hr hi hok hp hstep
    | call c =>
      obtain ⟨sh, sp, hc, rfl⟩ := Program.step_call hnext
      exact hcall hr hi hok hc
  exact hboth.2

/-- The same with the rules of the step, and with the quiet start of a call. -/
theorem Pool.induct {I : Pool σ R → Prop}
    (hreach : (poolMachine σ R cfg).Reachable Machine.anyStep s)
    (hstep : ∀ {s b pid p sh p' sp}, (poolMachine σ R cfg).Reachable Machine.anyStep s → I s →
      ok s (.run b pid) → s.procs[pid]? = some p → Proc.Step cfg pid s.shared p sh p' sp →
      I (s.update pid sh p' sp))
    (hcall : ∀ {s c sh sp}, (poolMachine σ R cfg).Reachable Machine.anyStep s → I s →
      ok s (.call c) → s.shared.Quiet sh → (∀ q, sp = some q → q.Fresh) → I (s.spawn sh sp))
    (h : (poolMachine σ R cfg).Steps ok s s') (hs : I s) : I s' := by
  refine Pool.invariant hreach ?_ ?_ h hs
  · intro s b pid p sh p' sp hr hi hok hp hrun
    exact hstep hr hi hok hp (Proc.step_of_run hrun)
  · intro s c sh sp hr hi hok hc
    obtain ⟨hquiet, hfresh⟩ := Call.enter_quiet hc
    exact hcall hr hi hok hquiet hfresh

/-- What a quiet step starts weighs nothing, when bystanders and new `submit`
calls weigh nothing. -/
theorem Proc.started_eq_zero {g : Proc R → Nat} (hbystander : ∀ {p}, p.bystander → g p = 0)
    (hfresh : ∀ clone labels future, g (.submit ⟨clone, labels, future, .checkToken, false⟩) = 0)
    (hsp : ∀ q, sp = some q → q.Fresh) : Threads.started g sp = 0 := by
  cases sp with
  | none => rfl
  | some q =>
    cases hsp q rfl with
    | bystander hp => exact hbystander hp
    | submit => exact hfresh _ _ _

/-- The conservation rule of a pool, one premise for each process that can hold
something. -/
theorem Pool.conserved {f k : Shared σ R → Nat} {g : Proc R → Nat}
    (hsubmit : ∀ {pid sh c sh' c' sp}, f sh + g (.submit c) ≤ k sh →
      SubmitStep cfg.kind pid sh c sh' c' sp →
      f sh' + g (.submit c') + Threads.started g sp + k sh = f sh + g (.submit c) + k sh')
    (hloop : ∀ {pid sh d sh' d' sp}, f sh + g (.loop d) ≤ k sh → LoopStep cfg pid sh d sh' d' sp →
      f sh' + g (.loop d') + Threads.started g sp + k sh = f sh + g (.loop d) + k sh')
    (hwrapper : ∀ {sh w sh' w'}, f sh + g (.wrapper w) ≤ k sh → WrapperStep cfg sh w sh' w' →
      f sh' + g (.wrapper w') + k sh = f sh + g (.wrapper w) + k sh')
    (hquiet : ∀ {sh sh'}, sh.Quiet sh' → f sh' + k sh = f sh + k sh')
    (hbystander : ∀ {p}, p.bystander → g p = 0)
    (hfresh : ∀ clone labels future, g (.submit ⟨clone, labels, future, .checkToken, false⟩) = 0)
    (h : (poolMachine σ R cfg).Steps ok s s') (hs : f s.shared + s.tally g = k s.shared) :
    f s'.shared + s'.tally g = k s'.shared := by
  refine Program.conserved ?_ ?_ h hs
  · intro b pid sh p sh' p' sp hle hrun
    cases Proc.step_of_run hrun with
    | submit hstep => exact hsubmit hle hstep
    | loop hstep => exact hloop hle hstep
    | wrapper hstep => simpa using hwrapper hle hstep
    | bystander hp hp' hstep =>
      have hq := hquiet hstep.1
      have hnew := Proc.started_eq_zero hbystander hfresh fun q hsp => .bystander (hstep.2 q hsp)
      rw [hbystander hp, hbystander hp', hnew]
      omega
  · intro c sh sh' sp hcall
    obtain ⟨hq, hnew⟩ := Call.enter_quiet hcall
    have hq := hquiet hq
    rw [Proc.started_eq_zero hbystander hfresh hnew]
    omega

/-- The bound rule of a pool. -/
theorem Pool.bounded {f k : Shared σ R → Nat} {g : Proc R → Nat}
    (hsubmit : ∀ {pid sh c sh' c' sp}, SubmitStep cfg.kind pid sh c sh' c' sp →
      f sh' + g (.submit c') + Threads.started g sp + k sh ≤ f sh + g (.submit c) + k sh')
    (hloop : ∀ {pid sh d sh' d' sp}, LoopStep cfg pid sh d sh' d' sp →
      f sh' + g (.loop d') + Threads.started g sp + k sh ≤ f sh + g (.loop d) + k sh')
    (hwrapper : ∀ {sh w sh' w'}, WrapperStep cfg sh w sh' w' →
      f sh' + g (.wrapper w') + k sh ≤ f sh + g (.wrapper w) + k sh')
    (hquiet : ∀ {sh sh'}, sh.Quiet sh' → f sh' + k sh ≤ f sh + k sh')
    (hbystander : ∀ {p}, p.bystander → g p = 0)
    (hfresh : ∀ clone labels future, g (.submit ⟨clone, labels, future, .checkToken, false⟩) = 0)
    (h : (poolMachine σ R cfg).Steps ok s s') (hs : f s.shared + s.tally g ≤ k s.shared) :
    f s'.shared + s'.tally g ≤ k s'.shared := by
  refine Program.bounded ?_ ?_ h hs
  · intro b pid sh p sh' p' sp hrun
    cases Proc.step_of_run hrun with
    | submit hstep => exact hsubmit hstep
    | loop hstep => exact hloop hstep
    | wrapper hstep => simpa using hwrapper hstep
    | bystander hp hp' hstep =>
      have hq := hquiet hstep.1
      have hnew := Proc.started_eq_zero hbystander hfresh fun q hsp => .bystander (hstep.2 q hsp)
      rw [hbystander hp, hbystander hp', hnew]
      omega
  · intro c sh sh' sp hcall
    obtain ⟨hq, hnew⟩ := Call.enter_quiet hcall
    have hq := hquiet hq
    rw [Proc.started_eq_zero hbystander hfresh hnew]
    omega

/-- The first processes are the dispatcher loops, which have not begun. -/
theorem Pool.init_loop {p : Proc R} (h : (Pool.new σ R cfg).At pid p) :
    pid < cfg.lanes ∧ p = .loop ⟨pid, .top, false⟩ := by
  simp only [Threads.At, Pool.new, List.getElem?_map, Option.map_eq_some_iff] at h
  obtain ⟨lane, hlane, rfl⟩ := h
  obtain ⟨hlt, rfl⟩ := List.getElem?_eq_some_iff.mp hlane
  rw [List.getElem_range]
  exact ⟨by simpa using hlt, rfl⟩

/-- A weight that an idle dispatcher loop does not have is zero at the start. -/
theorem Pool.tally_new {g : Proc R → Nat} (hloop : ∀ lane, g (.loop ⟨lane, .top, false⟩) = 0) :
    (Pool.new σ R cfg).tally g = 0 := by
  simp [Threads.tally, Pool.new, Function.comp_def, hloop]

end Rules

end FuturesOrchestra
