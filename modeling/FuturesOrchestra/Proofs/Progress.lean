import FuturesOrchestra.Proofs.Backpressure
import Mathlib.Order.Lattice.Nat

/-!
# The strict pool goes on

A submit call of the strict pool that waits for a queue slot can always be served by
the dispatcher, by tasks that complete and by the calls ahead of it. From every state in
which it waits some process has a step that brings it nearer: `rank` is what is left to
do, and one step of the right process lowers it.
-/

namespace FuturesOrchestra

open Interleaving Semaphore

variable {σ R : Type} {cfg : PoolConfig} {pid t : Nat} {sh sh' : Shared σ R}
  {sp : Option (Proc R)} {p p' : Proc R}

/-! ## Tasks that complete -/

/-- Whether poll `n` of the future is its last. -/
def TaskFuture.doneAt (f : TaskFuture R) (n : Nat) : Bool :=
  match f.poll n with
  | .pending => false
  | _ => true

/-- The future is done after finitely many more polls, and its destructors do not abort
the process by panicking while another panic unwinds. -/
structure TaskFuture.Completes (f : TaskFuture R) : Prop where
  done : ∀ n, ∃ k, f.doneAt (n + k) = true
  aborts : f.dropPanics = true → f.resultDropPanics = false ∧ f.payloadDropPanics = false

/-- How many more polls of the future are pending when it was polled `n` times. -/
noncomputable def TaskFuture.pollsLeft (f : TaskFuture R) (n : Nat) : Nat :=
  sInf {k | f.doneAt (n + k) = true}

theorem TaskFuture.Completes.pollsLeft_lt {f : TaskFuture R} (h : f.Completes) {n : Nat}
    (hpoll : f.poll n = .pending) : f.pollsLeft (n + 1) < f.pollsLeft n := by
  have hmem : f.doneAt (n + f.pollsLeft n) = true := Nat.sInf_mem (h.done n)
  have hpos : f.pollsLeft n ≠ 0 := by
    intro hzero
    rw [hzero, Nat.add_zero, TaskFuture.doneAt, hpoll] at hmem
    cases hmem
  obtain ⟨k, hk⟩ := Nat.exists_eq_succ_of_ne_zero hpos
  have hle : f.pollsLeft (n + 1) ≤ k := by
    refine Nat.sInf_le ?_
    show f.doneAt (n + 1 + k) = true
    rw [Nat.add_assoc, Nat.add_comm 1 k]
    rw [hk] at hmem
    exact hmem
  omega

/-! ## Tasks that would kill a dispatcher -/

/-- A dispatcher that takes the task out of its lane drops it, and the destructor panics. -/
def Shared.perilous (sh : Shared σ R) (t : Nat) : Bool :=
  sh.isCancelled t && (sh.tasks t).future.dropPanics

/-- The task that the loop has found cancelled and has not dropped yet. -/
def LoopPc.discards : LoopPc → Option Nat
  | .cancelSend _ t | .cancelLookup _ t | .cancelNotify _ t | .cancelDrop _ t => some t
  | _ => none

/-- The loop holds no task that would kill it. -/
def DispatcherLoop.harmless (sh : Shared σ R) (d : DispatcherLoop) : Bool :=
  d.pc.discards.all (fun t => !(sh.tasks t).future.dropPanics) &&
    match d.pc with
    | .guard t | .precheck _ t => !sh.perilous t
    | _ => true

def Proc.harmless (sh : Shared σ R) : Proc R → Bool
  | .submit c => c.pc.task.all fun t => !sh.perilous t
  | .loop d => d.harmless sh
  | _ => true

/-- No task that was cancelled before its start has a destructor that panics. -/
def harmless (s : Pool σ R) : Bool :=
  s.procs.all (Proc.harmless s.shared) &&
    s.shared.lanes.all fun l => l.items.all fun t => !s.shared.perilous t

/-- The process is a submit call, a dispatcher loop or a wrapper. -/
def Proc.working : Proc R → Bool
  | .submit _ | .loop _ | .wrapper _ => true
  | _ => false

/-- The event is a step of a dispatcher, of a task or of a submitter. -/
def advances (s : Pool σ R) : PoolEvent R → Bool
  | .run .step pid => (s.procs[pid]?).any Proc.working
  | _ => false

theorem harmless_iff {s : Pool σ R} : harmless s = true ↔
    (∀ pid p, s.At pid p → p.harmless s.shared = true) ∧
      ∀ (i : Nat) (l : Lane), s.shared.lanes[i]? = some l → ∀ t ∈ l.items,
        s.shared.perilous t = false := by
  simp only [harmless, Bool.and_eq_true, List.all_eq_true, Bool.not_eq_true']
  constructor
  · rintro ⟨hprocs, hlanes⟩
    exact ⟨fun pid p hp => hprocs p (List.mem_of_getElem? hp),
      fun i l hl => hlanes l (List.mem_of_getElem? hl)⟩
  · rintro ⟨hprocs, hlanes⟩
    refine ⟨fun p hp => ?_, fun l hl => ?_⟩
    · obtain ⟨pid, hpid⟩ := List.getElem?_of_mem hp
      exact hprocs pid p hpid
    · obtain ⟨i, hi⟩ := List.getElem?_of_mem hl
      exact hlanes i l hi

theorem Shared.perilous_kept (hcancelled : sh'.isCancelled t = true → sh.isCancelled t = true)
    (hfuture : (sh'.tasks t).future = (sh.tasks t).future) (h : sh.perilous t = false) :
    sh'.perilous t = false := by
  rw [← Bool.not_eq_true] at h ⊢
  simp only [perilous, Bool.and_eq_true] at h ⊢
  rw [hfuture]
  exact fun ⟨hc, hd⟩ => h ⟨hcancelled hc, hd⟩

/-- A new task is not cancelled. -/
theorem Shared.perilous_createTask (labels : Finset TaskLabel) (future : TaskFuture R) :
    (sh.createTask labels future).perilous sh.nextTaskId = false := by
  simp [perilous, isCancelled, Task.isCancelled, Task.new, TaskCore.new]

variable [Semaphore σ]

section Runs

variable {s : Pool σ R}

/-- A step of a dispatcher, a task or a submitter makes nothing perilous. -/
theorem perilous_of_run (hworks : p.working = true)
    (hrun : Proc.run cfg .step pid sh p = some (sh', p', sp)) (ht : t < sh.nextTaskId)
    (h : sh.perilous t = false) : sh'.perilous t = false := by
  refine Shared.perilous_kept (fun hcancelled => ?_) ?_ h
  · rcases Proc.isCancelled_of_run hrun hcancelled with hold | hcancels
    · exact hold
    · cases p <;> first | cases hcancels | cases hworks
  · exact ((Shared.Evolves.proc (Proc.step_of_run hrun)).tasks t ht).future

theorem SubmitStep.harmless {kind : PoolKind} {c c' : SubmitCall R}
    (h : SubmitStep kind pid sh c sh' c' sp) (hother : ∀ u, c.pc.task = some u →
      sh'.perilous u = false) : (Proc.submit c').harmless sh' = true := by
  cases h with
  | create hkind hpc | createScan hkind hpc =>
    simp [Proc.harmless, SubmitPc.task, Shared.perilous_createTask]
  | _ => simp_all [Proc.harmless, SubmitPc.task]

theorem LoopStep.harmless {d d' : DispatcherLoop} (h : LoopStep cfg pid sh d sh' d' sp)
    (hd : d.harmless sh = true)
    (hitems : ∀ l, sh.lanes[d.lane]? = some l → ∀ u ∈ l.items, sh.perilous u = false) :
    d'.harmless sh' = true := by
  obtain ⟨lane, pc, panicked⟩ := d
  cases h with
  | recv _ hpc hlane | recvRlxd _ hpc hlane =>
    have hspared := hitems _ hlane _ List.mem_cons_self
    show (!sh.perilous _) = true
    rw [hspared]
    rfl
  | guard _ hpc =>
    obtain rfl : pc = _ := hpc
    exact hd
  | @precheckCancelled permit t hpc hcancelled =>
    obtain rfl : pc = _ := hpc
    have hkept : (!sh.perilous t) = true := hd
    rw [Shared.perilous, hcancelled, Bool.true_and] at hkept
    simpa [DispatcherLoop.harmless, LoopPc.discards] using hkept
  | cancelSend hpc =>
    obtain rfl : pc = _ := hpc
    simpa [DispatcherLoop.harmless, LoopPc.discards, Task.send_future] using hd
  | cancelLookup hpc | cancelUnheard hpc | cancelNotify hpc =>
    obtain rfl : pc = _ := hpc
    exact hd
  | _ => rfl

theorem LoopStep.discards {d d' : DispatcherLoop} (h : LoopStep cfg pid sh d sh' d' sp)
    (ht : d'.pc.discards = some t) : d.pc.discards = some t ∨ d.pc.task = some t := by
  cases h with
  | precheckCancelled hpc =>
    rw [hpc]
    exact .inr ht
  | cancelSend hpc | cancelLookup hpc | cancelUnheard hpc | cancelNotify hpc =>
    rw [hpc]
    exact .inl ht
  | _ => cases ht

theorem lt_of_discards {ok : Pool σ R → PoolEvent R → Prop}
    (h : (poolMachine σ R cfg).Reachable ok s) {d : DispatcherLoop} (hd : s.At pid (.loop d))
    (ht : d.pc.discards = some t) : t < s.shared.nextTaskId := by
  refine Pool.invariant (I := fun s => ∀ pid d t, s.At pid (.loop d) → d.pc.discards = some t →
    t < s.shared.nextTaskId) .refl ?_ ?_ h ?_ pid d t hd ht
  · intro s b pid p sh p' sp hreach hs _ hp hrun qid d t hq ht
    refine Nat.lt_of_lt_of_le ?_ (Shared.Evolves.proc (Proc.step_of_run hrun)).nextTaskId
    rcases Threads.update_getElem? hp hq with ⟨-, rfl⟩ | ⟨-, hold⟩ | ⟨-, hnew⟩
    · obtain ⟨d₀, rfl, hstep⟩ := Proc.loop_of_run hrun
      rcases hstep.discards ht with hold | htask
      · exact hs pid d₀ t hp hold
      · exact lt_of_carries hreach hp htask
    · exact hs qid d t hold ht
    · rcases Proc.started_of_run (hnew ▸ hrun) with ⟨w, heq⟩ | heq <;> cases heq
  · intro s c sh sp _ hs _ hcall qid d t hq ht
    obtain ⟨hquiet, hfresh⟩ := Call.enter_quiet hcall
    rw [Threads.spawn_shared, hquiet.nextTaskId]
    rcases Threads.spawn_getElem? hq with hold | ⟨-, hnew⟩
    · exact hs qid d t hold ht
    · cases hfresh _ hnew with
      | bystander hby => exact hby.elim
  · intro pid d t hd ht
    cases (Pool.init_loop hd).2
    cases ht

omit [Semaphore σ] in
/-- A process that holds nothing perilous holds nothing perilous after a step that makes
nothing perilous. -/
theorem Proc.harmless_of (hp : p.harmless sh = true)
    (hperilous : ∀ t, p.carries = some t → sh.perilous t = false → sh'.perilous t = false)
    (hfuture : ∀ d t, p = .loop d → d.pc.discards = some t →
      (sh'.tasks t).future = (sh.tasks t).future) : p.harmless sh' = true := by
  cases p with
  | submit c =>
    simp only [Proc.harmless, Option.all_eq_true, Bool.not_eq_true'] at hp ⊢
    exact fun t ht => hperilous t ht (hp t ht)
  | loop d =>
    obtain ⟨lane, pc, panicked⟩ := d
    cases pc with
    | guard t | precheck _ t =>
      have hspared : (!sh.perilous t) = true := hp
      show (!sh'.perilous t) = true
      rw [hperilous t rfl (by simpa using hspared)]
      rfl
    | cancelSend _ t | cancelLookup _ t | cancelNotify _ t | cancelDrop _ t =>
      simpa [Proc.harmless, DispatcherLoop.harmless, LoopPc.discards, hfuture _ t rfl rfl] using hp
    | _ => rfl
  | _ => rfl

omit [Semaphore σ] in
theorem items_of_set {lanes : List Lane} {i j u : Nat} {l l' new : Lane} (hl : lanes[j]? = some l)
    (hl' : (lanes.set j new)[i]? = some l') (hu : u ∈ l'.items) :
    (i = j ∧ u ∈ new.items) ∨ ∃ l, lanes[i]? = some l ∧ u ∈ l.items := by
  by_cases hij : j = i
  · subst hij
    rw [List.getElem?_set_self (List.getElem?_eq_some_iff.mp hl).1] at hl'
    obtain rfl := Option.some.inj hl'
    exact .inl ⟨rfl, hu⟩
  · rw [List.getElem?_set_ne hij] at hl'
    exact .inr ⟨l', hl', hu⟩

/-- A loop puts nothing into a lane. -/
theorem LoopStep.items_kept {d d' : DispatcherLoop} {i u : Nat} {l' : Lane}
    (h : LoopStep cfg pid sh d sh' d' sp) (hl' : sh'.lanes[i]? = some l') (hu : u ∈ l'.items) :
    ∃ l, sh.lanes[i]? = some l ∧ u ∈ l.items := by
  cases h with
  | recv _ _ hlane | recvRlxd _ _ hlane | recvDiscard _ _ hlane | drain _ hlane =>
    rcases items_of_set hlane hl' hu with ⟨rfl, hnew⟩ | hold
    · exact ⟨_, hlane, List.mem_cons_of_mem _ hnew⟩
    · exact hold
  | exitReceiver _ hlane | exitLast _ hlane | drained _ hlane =>
    rcases items_of_set hlane hl' hu with ⟨rfl, hnew⟩ | hold
    · exact ⟨_, hlane, hnew⟩
    · exact hold
  | _ => exact ⟨l', hl', hu⟩

/-- A call puts nothing into a lane but its own task. -/
theorem SubmitStep.items_kept {kind : PoolKind} {c c' : SubmitCall R} {i u : Nat} {l' : Lane}
    (h : SubmitStep kind pid sh c sh' c' sp) (hl' : sh'.lanes[i]? = some l') (hu : u ∈ l'.items) :
    c.pc.task = some u ∨ ∃ l, sh.lanes[i]? = some l ∧ u ∈ l.items := by
  cases h with
  | @push t lane l hpc hlane =>
    rcases items_of_set hlane hl' hu with ⟨rfl, hnew⟩ | hold
    · rcases List.mem_append.mp hnew with hold | hself
      · exact .inr ⟨l, hlane, hold⟩
      · rw [List.mem_singleton.mp hself, hpc]
        exact .inl rfl
    · exact .inr hold
  | _ => exact .inr ⟨l', hl', hu⟩

omit [Semaphore σ] in
theorem Proc.not_bystander (hworks : p.working = true) : ¬p.bystander := by
  intro hby
  cases p <;> first | exact hby | cases hworks

/-- Steps of dispatchers, tasks and submitters keep the pool harmless. -/
theorem harmless_kept {ok : Pool σ R → PoolEvent R → Prop}
    (hreach : (poolMachine σ R cfg).Reachable ok s) (hs : harmless s = true) (hp : s.At pid p)
    (hworks : p.working = true) (hrun : Proc.run cfg .step pid s.shared p = some (sh', p', sp)) :
    harmless (s.update pid sh' p' sp) = true := by
  obtain ⟨hprocs, hlanes⟩ := harmless_iff.mp hs
  have hkept {u : Nat} (hu : u < s.shared.nextTaskId) (h : s.shared.perilous u = false) :
      sh'.perilous u = false := perilous_of_run hworks hrun hu h
  have hevolves := Shared.Evolves.proc (Proc.step_of_run hrun)
  refine harmless_iff.mpr ⟨fun qid q hq => ?_, fun i l hl u hu => ?_⟩
  · rw [Threads.update_shared]
    rcases Threads.update_getElem? hp hq with ⟨rfl, rfl⟩ | ⟨-, hold⟩ | ⟨-, hnew⟩
    · cases Proc.step_of_run hrun with
      | @submit c _ c' _ hstep =>
        refine hstep.harmless fun u hu => hkept (lt_of_carries hreach hp hu) ?_
        have hspared := hprocs qid _ hp
        simp only [Proc.harmless, Option.all_eq_true, Bool.not_eq_true'] at hspared
        exact hspared u hu
      | loop hstep => exact hstep.harmless (hprocs qid _ hp) fun l hl => hlanes _ l hl
      | wrapper => rfl
      | bystander hby => exact absurd hby (Proc.not_bystander hworks)
    · refine Proc.harmless_of (hprocs qid q hold) (fun t ht => hkept (lt_of_carries hreach hold ht)) ?_
      rintro d t rfl ht
      exact (hevolves.tasks t (lt_of_discards hreach hold ht)).future
    · rcases Proc.started_of_run (hnew ▸ hrun) with ⟨w, rfl⟩ | rfl <;> rfl
  · rw [Threads.update_shared] at hl ⊢
    have hold : (∃ l, s.shared.lanes[i]? = some l ∧ u ∈ l.items) → sh'.perilous u = false := by
      rintro ⟨l₀, hl₀, hu₀⟩
      have hpos := Shared.queued_pos.mpr ⟨i, l₀, hl₀, hu₀⟩
      exact hkept (live_of_queued hreach hpos).1 (hlanes i l₀ hl₀ u hu₀)
    cases Proc.step_of_run hrun with
    | @submit c _ c' _ hstep =>
      rcases hstep.items_kept hl hu with hself | hqueued
      · have hspared := hprocs pid _ hp
        simp only [Proc.harmless, Option.all_eq_true, Bool.not_eq_true'] at hspared
        exact hkept (lt_of_carries hreach hp hself) (hspared u hself)
      · exact hold hqueued
    | loop hstep => exact hold (hstep.items_kept hl hu)
    | wrapper hstep =>
      have hlanes' : sh'.lanes = s.shared.lanes := by cases hstep <;> rfl
      exact hold ⟨l, hlanes' ▸ hl, hu⟩
    | bystander hby => exact absurd hby (Proc.not_bystander hworks)

end Runs

/-! ## Program points of the strict pool -/

/-- The call is at a program point of the strict pool. -/
def SubmitPc.strict : SubmitPc → Bool
  | .scan .. | .tryAcquire _ | .route _ | .insertCount .. | .insert .. | .lookup .. | .spawn ..
  | .sendRoute _ => false
  | .push _ lane => lane == 0
  | _ => true

/-- The wrapper is at a program point of the strict pool, and unwinds only when a
destructor other than that of its future has panicked. -/
def Wrapper.strict (sh : Shared σ R) (w : Wrapper R) : Bool :=
  match w.pc with
  | .finish | .release => false
  | .unwind _ =>
    (sh.tasks w.task).future.resultDropPanics || (sh.tasks w.task).future.payloadDropPanics
  | _ => true

def Proc.strict (sh : Shared σ R) : Proc R → Bool
  | .submit c => c.pc.strict
  | .loop d => d.pc.strict
  | .wrapper w => w.strict sh
  | _ => true

theorem SubmitStep.strict {c c' : SubmitCall R} (h : SubmitStep .strict pid sh c sh' c' sp)
    (hc : c.pc.strict = true) : c'.pc.strict = true := by
  cases h <;> simp_all [SubmitPc.strict]

omit [Semaphore σ] in
theorem Wrapper.panics_of_discard {f : TaskFuture R} {value : Option R}
    (h : Wrapper.discardPanics f value = true) : (f.resultDropPanics || f.payloadDropPanics) = true := by
  rw [Bool.or_eq_true]
  cases value with
  | none => exact .inr h
  | some v => exact .inl h

theorem WrapperStep.strict {w w' : Wrapper R} (hstrict : cfg.kind = .strict)
    (h : WrapperStep cfg sh w sh' w')
    (hfuture : (sh'.tasks w.task).future = (sh.tasks w.task).future) : w'.strict sh' = true := by
  cases h with
  | discardUnwind _ _ hdrop => exact Wrapper.panics_of_discard hdrop
  | @sendUnwind result hpc hdrop =>
    cases result with
    | error e => cases hdrop
    | ok v =>
      simp only [Wrapper.resultPanics, Bool.and_eq_true] at hdrop
      simp only [Wrapper.strict, Wrapper.goto_pc, Wrapper.goto_task, hfuture, hdrop.2, Bool.true_or]
  | finish hkind | countOut hkind | release hkind | releasePanic hkind =>
    rw [hstrict] at hkind
    cases hkind
  | _ => rfl

section Runs

variable {ok : Pool σ R → PoolEvent R → Prop} {s : Pool σ R}

theorem proc_strict (hstrict : cfg.kind = .strict) (h : (poolMachine σ R cfg).Reachable ok s)
    (hp : s.At pid p) : p.strict s.shared = true := by
  refine Pool.invariant (I := fun s => ∀ pid p, s.At pid p → p.strict s.shared = true)
    .refl ?_ ?_ h ?_ pid p hp
  · intro s b pid p sh p' sp hreach hs _ hp hrun qid q hq
    have hevolves := Shared.Evolves.proc (Proc.step_of_run hrun)
    rw [Threads.update_shared]
    rcases Threads.update_getElem? hp hq with ⟨rfl, rfl⟩ | ⟨-, hold⟩ | ⟨-, hnew⟩
    · cases Proc.step_of_run hrun with
      | submit hstep => exact (hstrict ▸ hstep).strict (hs qid _ hp)
      | loop hstep => exact hstep.strict hstrict (hs qid _ hp)
      | @wrapper w _ _ hstep =>
        exact hstep.strict hstrict (hevolves.tasks w.task (lt_of_carries hreach hp rfl)).future
      | bystander _ hby' => cases q <;> first | rfl | exact hby'.elim
    · have hbefore := hs qid q hold
      cases q with
      | wrapper w =>
        have hfuture := (hevolves.tasks w.task (lt_of_carries hreach hold rfl)).future
        simpa only [Proc.strict, Wrapper.strict, hfuture] using hbefore
      | _ => exact hbefore
    · rcases Proc.started_of_run (hnew ▸ hrun) with ⟨w, rfl⟩ | rfl
      · have hstep : Proc.Step cfg pid s.shared p sh p' (some (.wrapper w)) :=
          Proc.step_of_run (hnew ▸ hrun)
        rw [Proc.strict, Wrapper.strict, hstep.spawned.2]
      · rfl
  · intro s c sh sp hreach hs _ hcall qid q hq
    obtain ⟨hquiet, hfresh⟩ := Call.enter_quiet hcall
    rw [Threads.spawn_shared]
    rcases Threads.spawn_getElem? hq with hold | ⟨-, hnew⟩
    · have hbefore := hs qid q hold
      cases q with
      | wrapper w =>
        have hfuture := (Task.Evolves.touched (hquiet.tasks w.task)).future
        simpa only [Proc.strict, Wrapper.strict, hfuture] using hbefore
      | _ => exact hbefore
    · cases hfresh _ hnew with
      | bystander hby => cases q <;> first | rfl | exact hby.elim
      | submit => rfl
  · intro pid p hp
    rw [(Pool.init_loop hp).2]
    rfl

/-- A loop lets nobody else wait at the concurrency gate. -/
theorem LoopStep.gate_waiters {d d' : DispatcherLoop} {w : Nat}
    (h : LoopStep cfg pid sh d sh' d' sp) (hne : w ≠ pid)
    (hw : w ∈ waiters sh'.concurrencyGate) : w ∈ waiters sh.concurrencyGate := by
  cases h with
  | @acquired hand gate hpc hgate =>
    have htaken := (pollAcquire_taken pid sh.concurrencyGate (by rw [hgate])).2
    rw [hgate] at htaken
    exact List.mem_of_mem_erase (htaken ▸ hw)
  | @pending hand gate hpc hgate =>
    have hpending := (pollAcquire_pending pid sh.concurrencyGate (by rw [hgate])).2
    rw [hgate] at hpending
    rw [hpending] at hw
    split at hw
    · exact hw
    · exact (List.mem_append.mp hw).resolve_right fun hself => hne (List.mem_singleton.mp hself)
  | acquireStop =>
    rw [waiters_dropAcquire] at hw
    exact List.mem_of_mem_erase hw
  | _ => simpa using hw

/-- Nobody waits at the concurrency gate of the strict pool but its dispatcher. -/
theorem gate_waiters (hstrict : cfg.kind = .strict) (h : (poolMachine σ R cfg).Reachable ok s) :
    ∀ w ∈ waiters s.shared.concurrencyGate, ∃ d, s.At w (.loop d) := by
  refine Pool.induct (I := fun s => ∀ w ∈ waiters s.shared.concurrencyGate,
    ∃ d, s.At w (.loop d)) .refl ?_ ?_ h ?_
  · intro s b pid p sh p' sp _ hs _ hp hstep w hw
    rw [Threads.update_shared] at hw
    have hkept (hold : w ∈ waiters s.shared.concurrencyGate)
        (hloop : ∀ d, p = .loop d → ∃ d', p' = .loop d') :
        ∃ d, (s.update pid sh p' sp).At w (.loop d) := by
      obtain ⟨d, hd⟩ := hs w hold
      by_cases hne : w = pid
      · subst hne
        obtain rfl := Option.some.inj (hp.symm.trans hd)
        obtain ⟨d', rfl⟩ := hloop d rfl
        exact ⟨d', Threads.update_self hp⟩
      · exact ⟨d, Threads.update_other hne hd⟩
    cases hstep with
    | submit hstep =>
      refine hkept ?_ (by rintro d ⟨⟩)
      cases hstep with
      | acquired hkind =>
        rw [hstrict] at hkind
        cases hkind
      | _ => exact hw
    | @loop d _ d' _ hstep =>
      by_cases hne : w = pid
      · subst hne
        exact ⟨d', Threads.update_self hp⟩
      · exact hkept (hstep.gate_waiters hne hw) fun _ _ => ⟨d', rfl⟩
    | wrapper hstep =>
      refine hkept ?_ (by rintro d ⟨⟩)
      cases hstep <;> simpa using hw
    | bystander hby _ hstep =>
      refine hkept (hstep.1.concurrencyGate ▸ hw) ?_
      rintro d rfl
      exact hby.elim
  · intro s c sh sp _ hs _ hquiet _ w hw
    rw [Threads.spawn_shared, hquiet.concurrencyGate] at hw
    obtain ⟨d, hd⟩ := hs w hw
    exact ⟨d, Threads.spawn_other hd⟩
  · intro w hw
    have hnone : waiters (poolMachine σ R cfg).init.shared.concurrencyGate = [] := waiters_new _
    rw [hnone] at hw
    cases hw

end Runs

/-! ## Who can go on -/

/-- The next step of the process is enabled. -/
def Proc.Enabled (cfg : PoolConfig) (pid : Nat) (sh : Shared σ R) (p : Proc R) : Prop :=
  ∃ sh' p' sp, Proc.run cfg .step pid sh p = some (sh', p', sp)

/-- The dispatcher can go on until it leaves. -/
theorem DispatcherLoop.enabled (pid : Nat) {d : DispatcherLoop} {l : Lane} (hstrict : cfg.kind = .strict)
    (hd : d.pc.strict = true) (hserving : d.pc.leaving = false) (htoken : sh.token = false)
    (hlane : sh.lanes[d.lane]? = some l) : (Proc.loop d).Enabled cfg pid sh := by
  have hrun : Proc.run cfg .step pid sh (.loop d) =
      (FuturePoolManager.runWorkerLoop cfg pid sh d).toProc .loop := by
    simp only [Proc.run, loopStep, hstrict]
  suffices hsome : (FuturePoolManager.runWorkerLoop cfg pid sh d).isSome = true by
    obtain ⟨r, hr⟩ := Option.isSome_iff_exists.mp hsome
    exact ⟨r.1, .loop r.2.1, r.2.2, by rw [hrun, hr]; rfl⟩
  obtain ⟨lane, pc, panicked⟩ := d
  obtain ⟨items, receiver, done⟩ := l
  cases pc with
  | acquire hand | acquireToken hand | recheck hand =>
    obtain rfl : hand = none := Option.isNone_iff_eq_none.mp hd
    simp [FuturePoolManager.runWorkerLoop, htoken]
  | recv permit =>
    obtain rfl : permit = true := hd
    simp only at hlane
    cases items <;> simp [FuturePoolManager.runWorkerLoop, hlane]
  | recvToken permit | precheck permit =>
    obtain rfl : permit = true := hd
    rfl
  | guard t => simp [FuturePoolManager.runWorkerLoop, htoken]
  | cancelDrop permit t =>
    simp only [FuturePoolManager.runWorkerLoop, DispatcherLoop.preCancelled]
    split <;> rfl
  | insertCount => cases hd
  | exit | drain | exited => cases hserving
  | _ => rfl

/-- A wrapper that holds its permit can go on, unless it aborts the process. -/
theorem Wrapper.enabled (pid : Nat) {w : Wrapper R} (hstrict : cfg.kind = .strict)
    (hw : w.strict sh = true) (hpermits : w.pc.permits ≠ 0) (hcompletes : (sh.tasks w.task).future.Completes) :
    (Proc.wrapper w).Enabled cfg pid sh := by
  have hrun : Proc.run cfg .step pid sh (.wrapper w) =
      (FuturePoolManager.wrapper cfg sh w).toProc .wrapper := by
    simp only [Proc.run, wrapperStep, hstrict]
  suffices hsome : (FuturePoolManager.wrapper cfg sh w).isSome = true by
    obtain ⟨r, hr⟩ := Option.isSome_iff_exists.mp hsome
    exact ⟨r.1, .wrapper r.2.1, r.2.2, by rw [hrun, hr]; rfl⟩
  obtain ⟨task, slot, sender, pc⟩ := w
  cases pc with
  | settled status =>
    simp only [FuturePoolManager.wrapper, Wrapper.body]
    split <;> rfl
  | unwind tx =>
    have hpanics : ((sh.tasks task).future.resultDropPanics ||
        (sh.tasks task).future.payloadDropPanics) = true := hw
    have hdrop : (sh.tasks task).future.dropPanics = false := by
      rw [← Bool.not_eq_true]
      intro hdrop
      obtain ⟨hresult, hpayload⟩ := hcompletes.aborts hdrop
      rw [hresult, hpayload] at hpanics
      cases hpanics
    simp [FuturePoolManager.wrapper, Wrapper.unwind, hdrop]
  | finish | release => cases hw
  | remove | ended | crashed => exact absurd rfl hpermits
  | _ => rfl

/-- A call that waits for a slot, or holds one, can go on. -/
theorem SubmitCall.enabled (pid : Nat) {c : SubmitCall R} (hstrict : cfg.kind = .strict)
    (hc : c.pc.strict = true) (hactive : c.pc.over = false) (hlane : 0 < sh.lanes.length) :
    (Proc.submit c).Enabled cfg pid sh := by
  have hrun : Proc.run cfg .step pid sh (.submit c) =
      (FuturePoolManager.submit pid sh c).toProc .submit := by
    simp only [Proc.run, submitStep, hstrict]
  suffices hsome : (FuturePoolManager.submit pid sh c).isSome = true by
    obtain ⟨r, hr⟩ := Option.isSome_iff_exists.mp hsome
    exact ⟨r.1, .submit r.2.1, r.2.2, by rw [hrun, hr]; rfl⟩
  obtain ⟨clone, labels, future, pc, unwound⟩ := c
  cases pc with
  | push t lane =>
    obtain rfl : lane = 0 := by simpa [SubmitPc.strict] using hc
    obtain ⟨l, hl⟩ : ∃ l, sh.lanes[0]? = some l := ⟨_, List.getElem?_eq_getElem hlane⟩
    simp only [FuturePoolManager.submit, QueueProducer.send, SubmitCall.enqueue, hl]
    split <;> rfl
  | checkToken | checkClosed =>
    simp only [FuturePoolManager.submit]
    split <;> rfl
  | sendToken t | sendClosed t | selectToken t =>
    simp only [FuturePoolManager.submit, QueueProducer.send]
    split <;> rfl
  | create | selectAcquire => rfl
  | returned | abandoned => cases hactive
  | _ => cases hc

/-! ## How far it is -/

/-- The steps until the loop has given away the task in its hand. -/
def LoopPc.handing : LoopPc → Nat
  | .guard _ => 6
  | .precheck .. => 5
  | .cancelSend .. => 4
  | .cancelLookup .. | .insert _ => 3
  | .cancelNotify .. | .lookup .. => 2
  | .cancelDrop .. | .spawn .. => 1
  | _ => 0

/-- The steps until the loop takes the next task out of its lane, once it has a permit. -/
def LoopPc.approach : LoopPc → Nat
  | .top | .acquireToken _ => 4
  | .acquire _ => 3
  | .recheck _ | .recvToken _ => 2
  | .recv _ => 1
  | _ => 0

/-- The steps until the wrapper has given back its permit. -/
noncomputable def Wrapper.work (sh : Shared σ R) (w : Wrapper R) : Nat :=
  match w.pc with
  | .poll => 2 * (sh.tasks w.task).future.pollsLeft (sh.tasks w.task).polls + 6
  | .selectCancelled => 2 * (sh.tasks w.task).future.pollsLeft (sh.tasks w.task).polls + 7
  | .resolved _ => 5
  | .outcome _ => 4
  | .settled _ => 3
  | .closing => 2
  | .unwind _ => 1
  | _ => 0

def Proc.handing : Proc R → Nat
  | .loop d => d.pc.handing
  | _ => 0

def Proc.approach : Proc R → Nat
  | .loop d => d.pc.approach
  | _ => 0

noncomputable def Proc.work (sh : Shared σ R) : Proc R → Nat
  | .wrapper w => w.work sh
  | _ => 0

/-- A call that has to look at the token before its next poll. -/
def Proc.unpolled : Proc R → Nat
  | .submit c => match c.pc with
    | .selectToken _ => 1
    | _ => 0
  | _ => 0

/-- What is left to do until the call of process `pid` has its slot: the calls ahead of it,
the calls with a slot, the queued tasks, the task in the dispatcher's hand, the tasks that
run, the dispatcher's way to its lane, and the calls about to poll. -/
noncomputable def Pool.rank (pid : Nat) (s : Pool σ R) : Nat × Nat × Nat × Nat × Nat × Nat × Nat :=
  ((waiters s.shared.queueGate).idxOf pid, s.tally Proc.slots, s.shared.messages,
    s.tally Proc.handing, s.tally (Proc.work s.shared), s.tally Proc.approach,
    s.tally Proc.unpolled)

/-- What a step of the dispatcher achieves: it takes a task out of its lane, gets on with
the one in its hand, or gets nearer to its lane. -/
inductive LoopStep.Nearer (sh sh' : Shared σ R) (d d' : DispatcherLoop) (sp : Option (Proc R)) :
    Prop
  | taken (hmessages : sh'.messages + 1 = sh.messages)
  | handed (hmessages : sh'.messages = sh.messages) (hlt : d'.pc.handing < d.pc.handing)
  | approached (hmessages : sh'.messages = sh.messages) (htasks : sh'.tasks = sh.tasks)
      (hsp : sp = none) (hhanding : d'.pc.handing = d.pc.handing)
      (hlt : d'.pc.approach < d.pc.approach)

theorem LoopStep.nearer {d d' : DispatcherLoop} {l : Lane} (hstrict : cfg.kind = .strict)
    (h : LoopStep cfg pid sh d sh' d' sp) (hserving : d.pc.leaving = false)
    (htoken : sh.token = false) (hd : d.harmless sh = true) (hl : sh.lanes[d.lane]? = some l)
    (hqueued : l.items ≠ [])
    (hready : ∀ hand, d.pc = .acquire hand → (pollAcquire pid sh.concurrencyGate).2 = true) :
    LoopStep.Nearer sh sh' d d' sp := by
  obtain ⟨lane, pc, panicked⟩ := d
  cases h with
  | @recv t items receiver done _ hpc hlane =>
    have hset : (sh.setLane lane ⟨items, receiver, done⟩).messages + (items.length + 1) =
        sh.messages + items.length := Shared.messages_setLane ⟨items, receiver, done⟩ hlane
    refine .taken ?_
    show (sh.setLane lane ⟨items, receiver, done⟩).messages + 1 = sh.messages
    omega
  | recvClosed _ hlane | recvEmpty _ hlane =>
    obtain rfl := Option.some.inj (hl.symm.trans hlane)
    exact absurd rfl hqueued
  | topRlxd hkind | recheckRlxd hkind | recvRlxd hkind | recvDiscard hkind | precheckRlxd hkind
  | insertCount hkind | insertRlxd hkind =>
    rw [hstrict] at hkind
    cases hkind
  | topStop _ hstop | acquireStop _ hstop | recheckStop _ hstop | recvStop _ hstop
  | guardStop _ _ hstop =>
    rw [htoken] at hstop
    cases hstop
  | pending hpc hgate =>
    have hpoll := hready _ hpc
    rw [hgate] at hpoll
    cases hpoll
  | exitPermit hpc | exitHand hpc | exitReceiver hpc | exitLast hpc | drain hpc | drained hpc =>
    obtain rfl : pc = _ := hpc
    cases hserving
  | cancelPanic hpc hpanics =>
    obtain rfl : pc = _ := hpc
    simp [DispatcherLoop.harmless, LoopPc.discards, hpanics] at hd
  | top _ hpc | recheck _ hpc | acquired hpc | acquireAgain hpc | recvAgain hpc =>
    obtain rfl : pc = _ := hpc
    exact .approached rfl rfl rfl rfl (by simp [LoopPc.approach])
  | guard _ hpc | precheckCancelled hpc | precheck _ hpc | insert _ hpc | lookup hpc | spawn hpc
  | cancelSend hpc | cancelLookup hpc | cancelUnheard hpc | cancelNotify hpc | cancelDrop hpc
  | cancelDropRlxd hpc =>
    obtain rfl : pc = _ := hpc
    exact .handed rfl (by simp [LoopPc.handing])

theorem WrapperStep.works {w w' : Wrapper R} (hstrict : cfg.kind = .strict)
    (h : WrapperStep cfg sh w sh' w') (hpermits : w.pc.permits ≠ 0)
    (hcompletes : (sh.tasks w.task).future.Completes) : w'.work sh' < w.work sh := by
  cases h with
  | pollPending hpc hpoll =>
    have hlt := hcompletes.pollsLeft_lt hpoll
    simp only [Wrapper.work, hpc, Wrapper.goto_pc, Wrapper.goto_task, Shared.modifyTask_tasks,
      if_true, Task.countPoll]
    omega
  | wake hpc =>
    simp only [Wrapper.work, hpc, Wrapper.goto_pc, Wrapper.goto_task]
    omega
  | pollReady hpc | pollPanicked hpc | cancelled hpc =>
    simp only [Wrapper.work, hpc, Wrapper.goto_pc]
    omega
  | finish hkind | countOut hkind | release hkind | releasePanic hkind =>
    rw [hstrict] at hkind
    cases hkind
  | remove _ hpc =>
    rw [hpc] at hpermits
    exact absurd rfl hpermits
  | discard hpc | pass hpc | passPanic hpc | discardUnwind hpc | send hpc | sendUnwind hpc
  | notify hpc | silent hpc | unwind hpc | unwindSent hpc =>
    simp [Wrapper.work, hpc]
  | close _ hpc | closePanic _ hpc => simp [Wrapper.work, hpc]

omit [Semaphore σ] in
theorem Proc.work_eq (htasks : sh'.tasks = sh.tasks) (p : Proc R) : p.work sh' = p.work sh := by
  cases p with
  | wrapper w => simp only [Proc.work, Wrapper.work, htasks]
  | _ => rfl

/-- A step of a wrapper is no work for the others. -/
theorem WrapperStep.work_other {w w' : Wrapper R} (h : WrapperStep cfg sh w sh' w')
    (hp : p.carries ≠ some w.task) : p.work sh' = p.work sh := by
  cases p with
  | wrapper v =>
    have hne : v.task ≠ w.task := fun heq => hp (congrArg some heq)
    have htasks : sh'.tasks v.task = sh.tasks v.task := by
      cases h <;> simp [hne]
    simp only [Proc.work, Wrapper.work, htasks]
  | _ => rfl

/-! ## Someone always goes on -/

/-- A strict pool that is not shut down, whose tasks other than `t` complete and none of
which would kill the dispatcher. -/
structure Live (cfg : PoolConfig) (t : Nat) (s : Pool σ R) : Prop where
  reach : (poolMachine σ R cfg).Reachable (fun s _ => harmless s = true) s
  calm : harmless s = true
  token : s.shared.token = false
  completes : ∀ u < s.shared.nextTaskId, u ≠ t → (s.shared.tasks u).future.Completes

/-- The call of process `pid` waits for a queue slot for task `t`. -/
def Waiting (pid t : Nat) (s : Pool σ R) : Prop :=
  ∃ c, s.At pid (.submit c) ∧ (c.pc = .selectToken t ∨ c.pc = .selectAcquire t)

/-- The call of process `pid` has a queue slot for task `t`. -/
def Slotted (pid t : Nat) (s : Pool σ R) : Prop :=
  ∃ c, s.At pid (.submit c) ∧ c.pc = .push t 0

/-- It waits, and it has its place in the queue of the gate. -/
structure Queueing (pid t : Nat) (s : Pool σ R) : Prop where
  waiting : Waiting pid t s
  registered : pid ∈ waiters s.shared.queueGate

/-- Some step of a dispatcher, a task or a submitter gives the call its slot or brings it
nearer to it. -/
def Advances (cfg : PoolConfig) (pid t : Nat) (s : Pool σ R) : Prop :=
  ∃ e s', advances s e = true ∧ (poolMachine σ R cfg).step s e = some s' ∧ Live cfg t s' ∧
    (Slotted pid t s' ∨ Queueing pid t s' ∧ WellFoundedRelation.rel (s'.rank pid) (s.rank pid))

theorem token_of_run (hworks : p.working = true)
    (hrun : Proc.run cfg .step pid sh p = some (sh', p', sp)) : sh'.token = sh.token := by
  cases Proc.step_of_run hrun with
  | submit hstep => exact hstep.token_kept
  | loop hstep => cases hstep <;> rfl
  | wrapper hstep => cases hstep <;> rfl
  | bystander hby => exact absurd hby (Proc.not_bystander hworks)

section Runs

variable {s : Pool σ R} {q : Nat}

/-- A dispatcher, a task or a submitter takes a step, and creates no task but `t`. -/
theorem Live.step (hs : Live cfg t s) (hp : s.At q p) (hworks : p.working = true)
    (hrun : Proc.run cfg .step q s.shared p = some (sh', p', sp))
    (hnext : ∀ u < sh'.nextTaskId, u ≠ t → u < s.shared.nextTaskId) :
    advances s (.run .step q) = true ∧
      (poolMachine σ R cfg).step s (.run .step q) = some (s.update q sh' p' sp) ∧
      Live cfg t (s.update q sh' p' sp) := by
  have hstep : (poolMachine σ R cfg).step s (.run .step q) = some (s.update q sh' p' sp) := by
    show (s.procs[q]?).bind _ = _
    rw [hp, Option.bind_some]
    show (Proc.run cfg .step q s.shared p).map _ = _
    rw [hrun]
    rfl
  refine ⟨?_, hstep, hs.reach.tail hs.calm hstep, harmless_kept hs.reach hs.calm hp hworks hrun,
    ?_, fun u hu hne => ?_⟩
  · rw [advances, hp]
    exact hworks
  · rw [Threads.update_shared, token_of_run hworks hrun, hs.token]
  · have hlt := hnext u hu hne
    rw [Threads.update_shared,
      ((Shared.Evolves.proc (Proc.step_of_run hrun)).tasks u hlt).future]
    exact hs.completes u hlt hne

omit [Semaphore σ] in
/-- Nobody harms the dispatcher of a live pool. -/
theorem Live.spared {s : Pool σ R} {d : DispatcherLoop} (hs : harmless s = true)
    (hd : s.At pid (.loop d)) (hstruck : d.struck s.shared = true) : s.shared.ending = true := by
  have hspared := (harmless_iff.mp hs).1 pid _ hd
  obtain ⟨lane, pc, panicked⟩ := d
  cases pc with
  | cancelDrop permit t =>
    have hpanics : (s.shared.tasks t).future.dropPanics = true := hstruck
    simp [Proc.harmless, DispatcherLoop.harmless, LoopPc.discards, hpanics] at hspared
  | _ => cases hstruck

section Strict

variable (hstrict : cfg.kind = .strict) (hone : cfg.lanes = 1)

include hstrict

/-- A wrapper with a permit gets nearer to its end. -/
theorem wrapper_advances (hs : Live cfg t s) (hpid : Queueing pid t s) {w : Wrapper R}
    (hq : s.At q (.wrapper w)) (hpermits : w.pc.permits ≠ 0) : Advances cfg pid t s := by
  obtain ⟨⟨c, hc, hpc⟩, hregistered⟩ := hpid
  have hne : pid ≠ q := by
    rintro rfl
    cases hc.symm.trans hq
  have htask : w.task ≠ t := by
    rintro rfl
    refine hne (carrier_unique hs.reach hc hq ?_ rfl)
    rcases hpc with hpc | hpc <;> simp [Proc.carries, SubmitPc.task, hpc]
  have hlt : w.task < s.shared.nextTaskId := lt_of_carries hs.reach hq rfl
  have hcompletes := hs.completes w.task hlt htask
  obtain ⟨sh, p', sp, hrun⟩ := Wrapper.enabled q hstrict (proc_strict hstrict hs.reach hq) hpermits
    hcompletes
  obtain ⟨w', rfl, hstep, rfl⟩ : ∃ w', p' = .wrapper w' ∧ WrapperStep cfg s.shared w sh w' ∧
      sp = none := by
    cases Proc.step_of_run hrun with
    | wrapper hstep => exact ⟨_, rfl, hstep, rfl⟩
    | bystander hby => exact hby.elim
  have hnext : sh.nextTaskId = s.shared.nextTaskId := by cases hstep <;> rfl
  obtain ⟨hadvances, hmachine, hlive⟩ := hs.step hq rfl hrun fun u hu _ => hnext ▸ hu
  have hwaiters := hstep.queueGate_waiters
  refine ⟨_, _, hadvances, hmachine, hlive, .inr
    ⟨⟨⟨c, Threads.update_other hne hc, hpc⟩, hwaiters ▸ hregistered⟩, ?_⟩⟩
  have hslots := Threads.tally_update Proc.slots sh (.wrapper w') none hq
  have hhanding := Threads.tally_update Proc.handing sh (.wrapper w') none hq
  have hwork := Threads.tally_update_of sh (.wrapper w') none hq (g := Proc.work s.shared)
    (h := Proc.work sh) fun i r hi hr => hstep.work_other ?_
  · have hworks := hstep.works hstrict hpermits hcompletes
    have hmessages : sh.messages = s.shared.messages :=
      Shared.messages_eq (by cases hstep <;> rfl)
    simp only [Proc.slots, Proc.handing, Proc.work, Threads.started_none, Nat.add_zero]
      at hslots hhanding hwork
    simp only [Pool.rank, Threads.update_shared, hwaiters, hslots, hmessages, hhanding]
    refine .right _ (.right _ (.right _ (.right _ (.left _ _ ?_))))
    show (s.update q sh (.wrapper w') none).tally (Proc.work sh) < s.tally (Proc.work s.shared)
    omega
  · intro hcarries
    exact hi (carrier_unique hs.reach hr hq hcarries rfl)

/-- The dispatcher gets nearer to the next task in its lane. -/
theorem loop_advances (hs : Live cfg t s) (hpid : Queueing pid t s) {d : DispatcherLoop}
    (hq : s.At q (.loop d)) {l : Lane} (hl : s.shared.lanes[d.lane]? = some l)
    (hqueued : l.items ≠ [])
    (hready : ∀ hand, d.pc = .acquire hand →
      (pollAcquire q s.shared.concurrencyGate).2 = true) : Advances cfg pid t s := by
  obtain ⟨⟨c, hc, hpc⟩, hregistered⟩ := hpid
  have hne : pid ≠ q := by
    rintro rfl
    cases hc.symm.trans hq
  have hborrowed : (Proc.submit c).borrowed = some c.clone := by
    rcases hpc with hpc | hpc <;> simp [Proc.borrowed, SubmitPc.over, hpc]
  have hserving := serving_of_borrowed (fun hok hd hstruck => Live.spared hok hd hstruck) hs.reach
    hs.token hc hborrowed hq
  obtain ⟨sh, p', sp, hrun⟩ := DispatcherLoop.enabled q hstrict
    (loop_strict hstrict hs.reach hq) hserving hs.token hl
  obtain ⟨d', rfl, hstep⟩ : ∃ d', p' = .loop d' ∧ LoopStep cfg q s.shared d sh d' sp := by
    cases Proc.step_of_run hrun with
    | loop hstep => exact ⟨_, rfl, hstep⟩
    | bystander hby => exact hby.elim
  have hnext : sh.nextTaskId = s.shared.nextTaskId := by cases hstep <;> rfl
  obtain ⟨hadvances, hmachine, hlive⟩ := hs.step hq rfl hrun fun u hu _ => hnext ▸ hu
  have hwaiters := hstep.queueGate_waiters
  refine ⟨_, _, hadvances, hmachine, hlive, .inr
    ⟨⟨⟨c, Threads.update_other hne hc, hpc⟩, hwaiters ▸ hregistered⟩, ?_⟩⟩
  have hslots := Threads.tally_update Proc.slots sh (.loop d') sp hq
  have hhanding := Threads.tally_update Proc.handing sh (.loop d') sp hq
  have happroach := Threads.tally_update Proc.approach sh (.loop d') sp hq
  have hstarted : Threads.started Proc.slots sp = 0 ∧ Threads.started Proc.handing sp = 0 := by
    cases hstep <;> exact ⟨rfl, rfl⟩
  simp only [Proc.slots, Proc.handing, Proc.approach, hstarted, Nat.add_zero]
    at hslots hhanding happroach
  simp only [Pool.rank, Threads.update_shared, hwaiters, hslots]
  refine .right _ (.right _ ?_)
  cases hstep.nearer hstrict hserving hs.token ((harmless_iff.mp hs.calm).1 q _ hq) hl hqueued
    hready with
  | taken hmessages =>
    refine .left _ _ ?_
    show sh.messages < s.shared.messages
    omega
  | handed hmessages hlt =>
    rw [hmessages]
    refine .right _ (.left _ _ ?_)
    show (s.update q sh (.loop d') sp).tally Proc.handing < s.tally Proc.handing
    omega
  | approached hmessages htasks hsp hsame hlt =>
    subst hsp
    have hwork := Threads.tally_update_of sh (.loop d') none hq (g := Proc.work s.shared)
      (h := Proc.work sh) fun i r _ _ => Proc.work_eq htasks r
    simp only [Proc.work, Threads.started_none, Nat.add_zero] at hwork happroach
    rw [hsame] at hhanding
    rw [hmessages, Nat.add_right_cancel hhanding, hwork]
    refine .right _ (.right _ (.right _ (.left _ _ ?_)))
    show (s.update q sh (.loop d') none).tally Proc.approach < s.tally Proc.approach
    omega

omit hstrict in
/-- The outcomes of a push. -/
theorem SubmitStep.of_push {c c' : SubmitCall R} {u i : Nat}
    (h : SubmitStep cfg.kind q sh c sh' c' sp) (hpush : c.pc = .push u i) :
    ∃ l, sh.lanes[i]? = some l ∧ (l.receiver = true →
      sh' = ((sh.setLane i { l with items := l.items ++ [u] }).modifyTask u Task.accept).unborrow
        c.clone ∧ c' = c.goto (.returned (.ok u)) ∧ sp = none) := by
  cases h with
  | push hpc hlane hrecv =>
    cases hpush.symm.trans hpc
    exact ⟨_, hlane, fun _ => ⟨rfl, rfl, rfl⟩⟩
  | pushFails hpc hlane hrecv =>
    cases hpush.symm.trans hpc
    exact ⟨_, hlane, fun htrue => by rw [hrecv] at htrue; cases htrue⟩
  | refuse hpc | reject hpc | abandon hpc =>
    rcases hpc with hpc | hpc <;> cases hpush.symm.trans hpc
  | checkToken hpc | checkClosed hpc | scan hpc | scanEmpty hpc | scanQueued hpc | notAcquired hpc
  | sendToken hpc | selectToken hpc | selectCancelled hpc | selectPending hpc =>
    cases hpush.symm.trans hpc
  | create _ hpc | createScan _ hpc | acquired _ hpc | route _ hpc | insertCount _ hpc
  | insert _ hpc | lookup _ hpc | spawn _ hpc | sendClosed _ hpc | sendClosedRlxd _ hpc
  | selectAcquired _ hpc | selectAcquiredRlxd _ hpc | sendRoute _ hpc =>
    cases hpush.symm.trans hpc

omit hstrict in
/-- A call of a live pool that has not returned finds the lane open. -/
theorem open_of_call (hs : Live cfg t s) {c : SubmitCall R} (hq : s.At q (.submit c))
    (hactive : c.pc.over = false) {i : Nat} {l : Lane} (hl : s.shared.lanes[i]? = some l) :
    l.receiver = true := by
  have hborrowed : (Proc.submit c).borrowed = some c.clone := by
    simp [Proc.borrowed, hactive]
  exact receiver_of_borrowed (fun hok hd hstruck => Live.spared hok hd hstruck) hs.reach hs.token hq
    hborrowed hl

include hone

/-- A call with a slot takes its next step, which puts its task into the lane. -/
theorem push_step (hs : Live cfg t s) {c : SubmitCall R} {u i : Nat}
    (hq : s.At q (.submit c)) (hpush : c.pc = .push u i) :
    ∃ sh, advances s (.run .step q) = true ∧
      (poolMachine σ R cfg).step s (.run .step q) =
        some (s.update q sh (.submit (c.goto (.returned (.ok u)))) none) ∧
      Live cfg t (s.update q sh (.submit (c.goto (.returned (.ok u)))) none) ∧
      sh.queueGate = s.shared.queueGate := by
  have hpoint : c.pc.strict = true := proc_strict hstrict hs.reach hq
  have hactive : c.pc.over = false := by rw [hpush]; rfl
  obtain ⟨sh, p', sp, hrun⟩ := SubmitCall.enabled q hstrict hpoint hactive
    ((dispatchers hs.reach).lanes.trans hone ▸ Nat.zero_lt_one)
  cases Proc.step_of_run hrun with
  | bystander hby => exact hby.elim
  | submit hstep =>
    obtain ⟨l, hl, hpushed⟩ := hstep.of_push hpush
    obtain ⟨rfl, rfl, rfl⟩ := hpushed (open_of_call hs hq hactive hl)
    obtain ⟨hadvances, hmachine, hlive⟩ := hs.step hq rfl hrun fun u hu _ => hu
    exact ⟨_, hadvances, hmachine, hlive, rfl⟩

theorem push_advances (hs : Live cfg t s) (hpid : Queueing pid t s) {c : SubmitCall R} {u i : Nat}
    (hq : s.At q (.submit c)) (hpush : c.pc = .push u i) : Advances cfg pid t s := by
  obtain ⟨⟨c₀, hc₀, hpc₀⟩, hregistered⟩ := hpid
  have hne : pid ≠ q := by
    rintro rfl
    obtain rfl := Proc.submit.inj (Option.some.inj (hc₀.symm.trans hq))
    rcases hpc₀ with hpc | hpc <;> cases hpc.symm.trans hpush
  obtain ⟨sh, hadvances, hmachine, hlive, hgate⟩ := push_step hstrict hone hs hq hpush
  refine ⟨_, _, hadvances, hmachine, hlive, .inr
    ⟨⟨⟨c₀, Threads.update_other hne hc₀, hpc₀⟩, ?_⟩, ?_⟩⟩
  · rw [Threads.update_shared, hgate]
    exact hregistered
  · have hslots := Threads.tally_update Proc.slots sh (.submit (c.goto (.returned (.ok u)))) none hq
    simp only [Proc.slots, hpush, SubmitPc.slots, SubmitCall.goto_pc, Threads.started_none,
      Nat.add_zero] at hslots
    rw [Pool.rank, Pool.rank, Threads.update_shared, hgate]
    refine .right _ (.left _ _ ?_)
    show (s.update q sh _ none).tally Proc.slots < s.tally Proc.slots
    omega

omit hone in
/-- A call in its `select!` polls the gate next, as long as the token is not cancelled. -/
theorem run_selectToken (q : Nat) {c : SubmitCall R} {u : Nat} (hpc : c.pc = .selectToken u)
    (htoken : sh.token = false) : Proc.run cfg .step q sh (.submit c) =
      some (sh, .submit (c.goto (.selectAcquire u)), none) := by
  simp [Proc.run, submitStep, hstrict, FuturePoolManager.submit, QueueProducer.send, hpc, htoken,
    Next.toProc]

omit hone in
/-- A poll that finds a slot. -/
theorem run_selectAcquire (q : Nat) {c : SubmitCall R} {u : Nat} (hpc : c.pc = .selectAcquire u)
    (hready : (pollAcquire q sh.queueGate).2 = true) :
    Proc.run cfg .step q sh (.submit c) =
      some ({ sh with queueGate := (pollAcquire q sh.queueGate).1 },
        .submit (c.goto (.push u 0)), none) := by
  simp [Proc.run, submitStep, hstrict, FuturePoolManager.submit, QueueProducer.send, hpc, hready,
    Next.toProc]

omit hone in
/-- A poll that finds none. -/
theorem run_selectPending (q : Nat) {c : SubmitCall R} {u : Nat} (hpc : c.pc = .selectAcquire u)
    (hready : (pollAcquire q sh.queueGate).2 = false) :
    Proc.run cfg .step q sh (.submit c) =
      some ({ sh with queueGate := (pollAcquire q sh.queueGate).1 },
        .submit (c.goto (.selectToken u)), none) := by
  simp [Proc.run, submitStep, hstrict, FuturePoolManager.submit, QueueProducer.send, hpc, hready,
    Next.toProc]

omit hone in
/-- A call that looks at the token gets to its next poll. -/
theorem selectToken_advances (hs : Live cfg t s) (hpid : Queueing pid t s) {c : SubmitCall R}
    {u : Nat} (hc : s.At q (.submit c)) (hpc : c.pc = .selectToken u) : Advances cfg pid t s := by
  obtain ⟨⟨c₀, hc₀, hpc₀⟩, hregistered⟩ := hpid
  obtain ⟨hadvances, hmachine, hlive⟩ := hs.step hc rfl (run_selectToken hstrict q hpc hs.token)
    fun u hu _ => hu
  refine ⟨_, _, hadvances, hmachine, hlive, .inr ⟨⟨?_, hregistered⟩, ?_⟩⟩
  · by_cases hne : pid = q
    · subst hne
      obtain rfl := Proc.submit.inj (Option.some.inj (hc₀.symm.trans hc))
      refine ⟨_, Threads.update_self hc, .inr ?_⟩
      rcases hpc₀ with hpc' | hpc' <;> cases hpc.symm.trans hpc'
      rfl
    · exact ⟨c₀, Threads.update_other hne hc₀, hpc₀⟩
  · have htally (g : Proc R → Nat) := Threads.tally_update g s.shared
      (.submit (c.goto (.selectAcquire u))) none hc
    have hslots := htally Proc.slots
    have hhanding := htally Proc.handing
    have hwork := htally (Proc.work s.shared)
    have happroach := htally Proc.approach
    have hunpolled := htally Proc.unpolled
    simp only [Proc.slots, hpc, SubmitPc.slots, SubmitCall.goto_pc] at hslots
    simp only [Proc.handing, Proc.work, Proc.approach, Proc.unpolled, hpc, SubmitCall.goto_pc,
      Threads.started_none, Nat.add_zero] at hslots hhanding hwork happroach hunpolled
    rw [Pool.rank, Pool.rank, Threads.update_shared, hslots, hhanding, hwork, happroach]
    refine .right _ (.right _ (.right _ (.right _ (.right _ (.right _ ?_)))))
    show (s.update q s.shared _ none).tally Proc.unpolled < s.tally Proc.unpolled
    omega

omit hone in
/-- The first call in the queue of the gate gets its slot. -/
theorem poll_advances (hs : Live cfg t s) (hpid : Queueing pid t s)
    (hfree : 0 < permits s.shared.queueGate) : Advances cfg pid t s := by
  obtain ⟨w, rest, hwaiters⟩ := List.exists_cons_of_ne_nil (List.ne_nil_of_mem hpid.registered)
  obtain ⟨c, hc, hselecting⟩ := (slotWaiters hs.reach).selecting w (hwaiters ▸ List.mem_cons_self)
  have hready : (pollAcquire w s.shared.queueGate).2 = true := by
    rw [pollAcquire_ready, hwaiters]
    exact ⟨hfree, rfl⟩
  cases hpc : c.pc with
  | selectToken u => exact selectToken_advances hstrict hs hpid hc hpc
  | selectAcquire u =>
    obtain ⟨⟨c₀, hc₀, hpc₀⟩, hregistered⟩ := hpid
    obtain ⟨hadvances, hmachine, hlive⟩ := hs.step hc rfl (run_selectAcquire hstrict w hpc hready)
      fun u hu _ => hu
    have htaken := (pollAcquire_taken w s.shared.queueGate hready).2
    rw [hwaiters, List.erase_cons_head] at htaken
    refine ⟨_, _, hadvances, hmachine, hlive, ?_⟩
    by_cases hne : pid = w
    · subst hne
      obtain rfl := Proc.submit.inj (Option.some.inj (hc₀.symm.trans hc))
      refine .inl ⟨_, Threads.update_self hc, ?_⟩
      rcases hpc₀ with hpc' | hpc' <;> cases hpc.symm.trans hpc'
      rfl
    · rw [hwaiters] at hregistered
      refine .inr ⟨⟨⟨c₀, Threads.update_other hne hc₀, hpc₀⟩, ?_⟩, .left _ _ ?_⟩
      · show pid ∈ waiters (pollAcquire w s.shared.queueGate).1
        rw [htaken]
        exact (List.mem_cons.mp hregistered).resolve_left hne
      · show (waiters (pollAcquire w s.shared.queueGate).1).idxOf pid <
          (waiters s.shared.queueGate).idxOf pid
        rw [htaken, hwaiters, List.idxOf_cons_ne _ (Ne.symm hne)]
        exact Nat.lt_succ_self _
  | _ =>
    rw [hpc] at hselecting
    cases hselecting

omit hstrict in
/-- The dispatcher of a strict pool, with its lane. -/
theorem dispatcher_of_strict (hs : Live cfg t s) :
    ∃ d l, s.At 0 (.loop d) ∧ s.shared.lanes[d.lane]? = some l ∧
      s.shared.messages = l.items.length := by
  have hdispatchers := dispatchers hs.reach
  obtain ⟨d, hd⟩ := hdispatchers.present 0 (hone ▸ Nat.zero_lt_one)
  obtain ⟨l, hl⟩ := List.length_eq_one_iff.mp (hdispatchers.lanes.trans hone)
  refine ⟨d, l, hd, ?_, ?_⟩
  · rw [hdispatchers.lane 0 d hd, hl]
    rfl
  · rw [Shared.messages, hl]
    rfl

/-- Without a slot for anybody, the dispatcher makes one, or a task that runs lets it. -/
theorem dispatch_advances (hs : Live cfg t s) (hpid : Queueing pid t s) (hpermits : 1 ≤ cfg.permits)
    (hslots : 1 ≤ cfg.queueSlots) (hnone : permits s.shared.queueGate = 0)
    (hheld : s.tally Proc.slots = 0) : Advances cfg pid t s := by
  obtain ⟨d, l, hd, hl, hmessages⟩ := dispatcher_of_strict hone hs
  have hqueued : l.items ≠ [] := by
    have htotal := slots_before_shutdown (fun hok hd hstruck => Live.spared hok hd hstruck) hs.reach
      hs.token
    rw [Pool.slots, hnone, hheld, hmessages] at htotal
    intro hempty
    rw [hempty] at htotal
    simp at htotal
    omega
  by_cases hready : ∀ hand, d.pc = .acquire hand →
      (pollAcquire 0 s.shared.concurrencyGate).2 = true
  · exact loop_advances hstrict hs hpid hd hl hqueued hready
  · -- the dispatcher waits for a permit, so that some wrapper holds one
    obtain ⟨hand, hunready⟩ := not_forall.mp hready
    obtain ⟨hpc, hunready⟩ := Classical.not_imp.mp hunready
    have hdispatchers := dispatchers hs.reach
    have hloop : ∀ q e, s.At q (.loop e) → q = 0 := by
      intro q e he
      obtain ⟨l', hl', -⟩ := hdispatchers.agrees q e he
      have hlt := (List.getElem?_eq_some_iff.mp hl').1
      rw [hdispatchers.lanes, hone] at hlt
      exact Nat.lt_one_iff.mp hlt
    -- the dispatcher is first in the queue of the gate, so that there is no permit
    have hempty : permits s.shared.concurrencyGate = 0 := by
      by_contra hpos
      refine hunready ((pollAcquire_ready _ _).mpr ⟨Nat.pos_of_ne_zero hpos, ?_⟩)
      cases hwaiters : waiters s.shared.concurrencyGate with
      | nil => rfl
      | cons w rest =>
        obtain ⟨e, he⟩ := gate_waiters hstrict hs.reach w (hwaiters ▸ List.mem_cons_self)
        exact hloop w e he
    by_contra hstuck
    have hzero : s.tally Proc.permits = 0 := by
      refine Threads.tally_eq_zero fun q p hq => ?_
      cases p with
      | submit c =>
        have hpoint : c.pc.strict = true := proc_strict hstrict hs.reach hq
        show c.pc.permits = 0
        cases hcpc : c.pc <;> rw [hcpc] at hpoint <;> first | rfl | cases hpoint
      | loop e =>
        obtain rfl := hloop q e hq
        obtain rfl := Proc.loop.inj (Option.some.inj (hd.symm.trans hq))
        show d.pc.permits = 0
        rw [hpc]
        rfl
      | wrapper w =>
        by_contra hne
        exact hstuck (wrapper_advances hstrict hs hpid hq hne)
      | _ => rfl
    have hconserved := permits_conserved hs.reach
    omega

/-- A call in the queue of the gate gets nearer to its slot, whatever state the pool is in. -/
theorem queue_advances (hpermits : 1 ≤ cfg.permits) (hslots : 1 ≤ cfg.queueSlots)
    (hs : Live cfg t s) (hpid : Queueing pid t s) : Advances cfg pid t s := by
  by_cases hfree : 0 < permits s.shared.queueGate
  · exact poll_advances hstrict hs hpid hfree
  by_cases hheld : s.tally Proc.slots = 0
  · exact dispatch_advances hstrict hone hs hpid hpermits hslots (Nat.eq_zero_of_not_pos hfree)
      hheld
  · -- some call has a slot for its task
    by_contra hstuck
    refine hheld (Threads.tally_eq_zero fun q p hq => ?_)
    cases p with
    | submit c =>
      have hpoint : c.pc.strict = true := proc_strict hstrict hs.reach hq
      show c.pc.slots = 0
      cases hpc : c.pc with
      | push u i => exact absurd (push_advances hstrict hone hs hpid hq hpc) hstuck
      | sendRoute u =>
        rw [hpc] at hpoint
        cases hpoint
      | _ => rfl
    | _ => rfl

/-- A call in the queue of the gate gets its slot in some continuation. -/
theorem slotted_of_queueing (hpermits : 1 ≤ cfg.permits) (hslots : 1 ≤ cfg.queueSlots)
    (hs : Live cfg t s) (hpid : Queueing pid t s) :
    ∃ s', (poolMachine σ R cfg).Steps (fun s a => advances s a = true) s s' ∧ Live cfg t s' ∧
      Slotted pid t s' := by
  have hboth : Live cfg t s ∧ Queueing pid t s := ⟨hs, hpid⟩
  refine Machine.exists_steps_of_rank WellFoundedRelation.wf (Pool.rank pid)
    (I := fun s => Live cfg t s ∧ Queueing pid t s) (fun u hu => ?_) hboth
  obtain ⟨e, v, hadvances, hstep, hlive, hcase⟩ :=
    queue_advances hstrict hone hpermits hslots hu.1 hu.2
  refine ⟨e, v, hadvances, hstep, ?_⟩
  rcases hcase with hslotted | ⟨hqueueing, hlt⟩
  · exact .inl ⟨hlive, hslotted⟩
  · exact .inr ⟨⟨hlive, hqueueing⟩, hlt⟩

omit hstrict hone in
/-- The call itself takes a step. -/
theorem own_step (hs : Live cfg t s) {c : SubmitCall R} (hc : s.At pid (.submit c))
    (c' : SubmitCall R)
    (hrun : Proc.run cfg .step pid s.shared (.submit c) = some (sh, .submit c', none))
    (hnext : ∀ u < sh.nextTaskId, u ≠ t → u < s.shared.nextTaskId) :
    ∃ s', (poolMachine σ R cfg).Steps (fun s a => advances s a = true) s s' ∧ Live cfg t s' ∧
      s'.At pid (.submit c') ∧ s'.shared = sh := by
  obtain ⟨hadvances, hmachine, hlive⟩ := hs.step hc rfl hrun hnext
  exact ⟨_, .tail .refl hadvances hmachine, hlive, Threads.update_self hc, rfl⟩

omit hone in
/-- A poll of the gate gives the call its slot or a place in the queue. -/
theorem queueing_of_selectAcquire (hs : Live cfg t s) {c : SubmitCall R}
    (hc : s.At pid (.submit c)) (hpc : c.pc = .selectAcquire t) :
    ∃ s', (poolMachine σ R cfg).Steps (fun s a => advances s a = true) s s' ∧ Live cfg t s' ∧
      (Slotted pid t s' ∨ Queueing pid t s') := by
  cases hready : (pollAcquire pid s.shared.queueGate).2 with
  | true =>
    obtain ⟨s', hsteps, hlive, hc', -⟩ :=
      own_step hs hc _ (run_selectAcquire hstrict pid hpc hready) fun u hu _ => hu
    exact ⟨s', hsteps, hlive, .inl ⟨_, hc', rfl⟩⟩
  | false =>
    obtain ⟨s', hsteps, hlive, hc', hshared⟩ :=
      own_step hs hc _ (run_selectPending hstrict pid hpc hready) fun u hu _ => hu
    refine ⟨s', hsteps, hlive, .inr ⟨⟨_, hc', .inl rfl⟩, ?_⟩⟩
    rw [hshared, (pollAcquire_pending pid s.shared.queueGate hready).2]
    split
    · assumption
    · exact List.mem_append_right _ List.mem_cons_self

omit hone in
theorem queueing_of_waiting (hs : Live cfg t s) (hpid : Waiting pid t s) :
    ∃ s', (poolMachine σ R cfg).Steps (fun s a => advances s a = true) s s' ∧ Live cfg t s' ∧
      (Slotted pid t s' ∨ Queueing pid t s') := by
  obtain ⟨c, hc, hpc | hpc⟩ := hpid
  · obtain ⟨u, hfirst, hlive, hc', -⟩ :=
      own_step hs hc _ (run_selectToken hstrict pid hpc hs.token) fun u hu _ => hu
    obtain ⟨s', hrest, hlive', hcase⟩ := queueing_of_selectAcquire hstrict hlive hc' rfl
    exact ⟨s', hfirst.trans hrest, hlive', hcase⟩
  · exact queueing_of_selectAcquire hstrict hs hc hpc

/-- The call of process `pid` is accepted with task `t` in some continuation of dispatchers,
tasks and submitters. -/
def CanBeAccepted (cfg : PoolConfig) (pid t : Nat) (s : Pool σ R) : Prop :=
  ∃ s' c, (poolMachine σ R cfg).Steps (fun s a => advances s a = true) s s' ∧
    s'.At pid (.submit c) ∧ c.pc = .returned (.ok t)

theorem accepted_of_slotted (hs : Live cfg t s) (hpid : Slotted pid t s) :
    CanBeAccepted cfg pid t s := by
  obtain ⟨c, hc, hpc⟩ := hpid
  obtain ⟨sh, hadvances, hmachine, -, -⟩ := push_step hstrict hone hs hc hpc
  exact ⟨_, _, .tail .refl hadvances hmachine, Threads.update_self hc, rfl⟩

theorem accepted_of_waiting (hpermits : 1 ≤ cfg.permits) (hslots : 1 ≤ cfg.queueSlots)
    (hs : Live cfg t s) (hpid : Waiting pid t s) : CanBeAccepted cfg pid t s := by
  obtain ⟨u, hfirst, hlive, hcase⟩ := queueing_of_waiting hstrict hs hpid
  obtain ⟨v, hnext, hlive', hslotted⟩ : ∃ v,
      (poolMachine σ R cfg).Steps (fun s a => advances s a = true) u v ∧ Live cfg t v ∧
        Slotted pid t v := by
    rcases hcase with hslotted | hqueueing
    · exact ⟨u, .refl, hlive, hslotted⟩
    · exact slotted_of_queueing hstrict hone hpermits hslots hlive hqueueing
  obtain ⟨s', c, hlast, hc, hpc⟩ := accepted_of_slotted hstrict hone hlive' hslotted
  exact ⟨s', c, (hfirst.trans hnext).trans hlast, hc, hpc⟩

/-- A call that has just begun comes to wait for a slot by its own steps. -/
theorem waiting_of_begun (hs : Live cfg s.shared.nextTaskId s) {c : SubmitCall R}
    (hc : s.At pid (.submit c)) (hpc : c.pc = .checkToken) :
    ∃ s', (poolMachine σ R cfg).Steps (fun s a => advances s a = true) s s' ∧
      Live cfg s.shared.nextTaskId s' ∧ Waiting pid s.shared.nextTaskId s' := by
  have hopen : s.shared.queueClosed = false := by
    obtain ⟨l, hl⟩ := List.length_eq_one_iff.mp ((dispatchers hs.reach).lanes.trans hone)
    have hreceiver := open_of_call hs hc (by rw [hpc]; rfl) (i := 0) (by rw [hl]; rfl)
    rw [Shared.queueClosed, hl, List.all_cons, hreceiver]
    rfl
  -- the checks of `submit`, the new task, and the checks of `send`
  obtain ⟨s₁, h₁, hs₁, hc₁, hshared₁⟩ := own_step hs hc (c.goto .checkClosed) (by
    simp [Proc.run, submitStep, hstrict, FuturePoolManager.submit, hpc, hs.token, Next.toProc])
    fun u hu _ => hu
  obtain ⟨s₂, h₂, hs₂, hc₂, hshared₂⟩ := own_step hs₁ hc₁ (c.goto .create) (by
    simp [Proc.run, submitStep, hstrict, FuturePoolManager.submit, hshared₁, hopen, Next.toProc,
      SubmitCall.goto]) fun u hu _ => hu
  rw [hshared₁] at hshared₂
  obtain ⟨s₃, h₃, hs₃, hc₃, hshared₃⟩ := own_step hs₂ hc₂
    (c.goto (.sendToken s.shared.nextTaskId)) (by
    rw [hshared₂]
    simp only [Proc.run, submitStep, hstrict, FuturePoolManager.submit, Next.toProc,
      SubmitCall.goto, Option.map_some]
    rfl) fun u hu hne => by
      have hlt : u < s.shared.nextTaskId + 1 := hu
      rw [hshared₂]
      omega
  obtain ⟨s₄, h₄, hs₄, hc₄, hshared₄⟩ := own_step hs₃ hc₃
    (c.goto (.sendClosed s.shared.nextTaskId)) (by
    simp [Proc.run, submitStep, hstrict, FuturePoolManager.submit, QueueProducer.send, hs₃.token,
      Next.toProc, SubmitCall.goto]) fun u hu _ => hu
  have hopen₄ : s₄.shared.queueClosed = false := by
    rw [hshared₄, hshared₃]
    exact hopen
  obtain ⟨s₅, h₅, hs₅, hc₅, -⟩ := own_step hs₄ hc₄
    (c.goto (.selectToken s.shared.nextTaskId)) (by
    simp [Proc.run, submitStep, hstrict, FuturePoolManager.submit, QueueProducer.send, hopen₄,
      Next.toProc, SubmitCall.goto]) fun u hu _ => hu
  exact ⟨s₅, (((h₁.trans h₂).trans h₃).trans h₄).trans h₅, hs₅, _, hc₅, .inl rfl⟩

omit hone in
/-- Without any slots a call that waits goes on waiting. -/
theorem waiting_forever (hslots : cfg.queueSlots = 0) {s s' : Pool σ R}
    (hreach : (poolMachine σ R cfg).Reachable (fun s _ => harmless s = true) s)
    (hcalm : harmless s = true) (htoken : s.shared.token = false) (hpid : Waiting pid t s)
    (h : (poolMachine σ R cfg).Steps (fun s a => advances s a = true) s s') :
    Waiting pid t s' := by
  have hall : (poolMachine σ R cfg).Reachable (fun s _ => harmless s = true) s' ∧
      harmless s' = true ∧ s'.shared.token = false ∧ Waiting pid t s' := by
    refine h.invariant (I := fun s => (poolMachine σ R cfg).Reachable (fun s _ => harmless s = true) s ∧
      harmless s = true ∧ s.shared.token = false ∧ Waiting pid t s) ?_ ⟨hreach, hcalm, htoken, hpid⟩
    rintro u a v ⟨hreach, hcalm, htoken, c, hc, hpc⟩ hadvances hnext
    cases a with
    | call => cases hadvances
    | run b q =>
      have hreach' := hreach.tail hcalm hnext
      obtain ⟨p, sh, p', sp, hp, hrun, rfl⟩ := Program.step_run hnext
      cases b with
      | step =>
        have hworks : p.working = true := by
          rw [advances, hp] at hadvances
          exact hadvances
        refine ⟨hreach', harmless_kept hreach hcalm hp hworks hrun, ?_, ?_⟩
        · rw [Threads.update_shared, token_of_run hworks hrun, htoken]
        by_cases hne : pid = q
        · subst hne
          obtain rfl := Option.some.inj (hc.symm.trans hp)
          rcases hpc with hpc | hpc
          · cases (run_selectToken hstrict pid hpc htoken).symm.trans hrun
            exact ⟨_, Threads.update_self hp, .inr rfl⟩
          · -- the poll finds no slot
            have hnone := slots_before_shutdown
              (fun hok hd hstruck => Live.spared hok hd hstruck) hreach htoken
            have hunready : (pollAcquire pid u.shared.queueGate).2 = false := by
              rw [← Bool.not_eq_true, pollAcquire_ready]
              rintro ⟨hpos, -⟩
              rw [Pool.slots, hslots] at hnone
              omega
            cases (run_selectPending hstrict pid hpc hunready).symm.trans hrun
            exact ⟨_, Threads.update_self hp, .inl rfl⟩
        · exact ⟨c, Threads.update_other hne hc, hpc⟩
      | _ => cases hadvances
  exact hall.2.2.2

end Strict

end Runs

/-- No deadlock of the strict pool. In every run without a task that is cancelled before its
start and has a panicking destructor, and before the shutdown: a call that waits for a queue
slot can be accepted by steps of the dispatcher, of tasks that complete and of submitters, if
and only if the queue capacity is not 0; and then so can a call that has just begun. -/
theorem strict_submit_accepted_iff (σ R : Type) [Semaphore σ] (limit capacity : Nat)
    (name : String) :
    (∀ (pid t : Nat) (s : Pool σ R),
      (poolMachine σ R (.manager limit capacity name)).Reachable (fun s _ => harmless s = true) s →
      harmless s = true → s.shared.token = false →
      (∀ u < s.shared.nextTaskId, u ≠ t → (s.shared.tasks u).future.Completes) →
      Waiting pid t s → (CanBeAccepted (.manager limit capacity name) pid t s ↔ 1 ≤ capacity)) ∧
    ∀ (pid : Nat) (c : SubmitCall R) (s : Pool σ R), 1 ≤ capacity →
      (poolMachine σ R (.manager limit capacity name)).Reachable (fun s _ => harmless s = true) s →
      harmless s = true → s.shared.token = false →
      (∀ u < s.shared.nextTaskId, (s.shared.tasks u).future.Completes) →
      s.At pid (.submit c) → c.pc = .checkToken →
      CanBeAccepted (.manager limit capacity name) pid s.shared.nextTaskId s := by
  have hpermits : 1 ≤ (PoolConfig.manager limit capacity name).permits := Nat.le_max_right limit 1
  refine ⟨fun pid t s hreach hcalm htoken hcompletes hpid => ⟨fun haccepted => ?_, fun hcapacity => ?_⟩,
    fun pid c s hcapacity hreach hcalm htoken hcompletes hc hpc => ?_⟩
  · by_contra hzero
    obtain ⟨s', c, hsteps, hc, hpc⟩ := haccepted
    obtain ⟨c', hc', hwaits⟩ := waiting_forever rfl (Nat.lt_one_iff.mp (Nat.lt_of_not_le hzero)) hreach
      hcalm htoken hpid hsteps
    obtain rfl := Proc.submit.inj (Option.some.inj (hc.symm.trans hc'))
    rcases hwaits with hwaits | hwaits <;> cases hpc.symm.trans hwaits
  · exact accepted_of_waiting rfl rfl hpermits hcapacity ⟨hreach, hcalm, htoken, hcompletes⟩ hpid
  · have hlive : Live (.manager limit capacity name) s.shared.nextTaskId s :=
      ⟨hreach, hcalm, htoken, fun u hu _ => hcompletes u hu⟩
    obtain ⟨u, hfirst, hlive', hwaits⟩ := waiting_of_begun rfl rfl hlive hc hpc
    obtain ⟨s', c', hrest, hc', hpc'⟩ := accepted_of_waiting rfl rfl hpermits hcapacity hlive' hwaits
    exact ⟨s', c', hfirst.trans hrest, hc', hpc'⟩

/-- One task is in the queue, a second call waits for a slot, and a third one has just begun. -/
def callsWaiting : Pool FairSemaphore Nat :=
  let M := poolMachine FairSemaphore Nat (.manager 1 1 "pool")
  M.after (fun s _ => harmless s)
    (.call (.submit 0 ∅ (.ready 7)) :: stepping [1, 1, 1, 1, 1, 1, 1, 1] ++
      .call (.submit 0 ∅ (.ready 8)) :: stepping [2, 2, 2, 2, 2, 2, 2] ++
      [.call (.submit 0 ∅ (.ready 9))]) M.init

theorem TaskFuture.completes_ready (value : R) : (TaskFuture.ready value).Completes :=
  ⟨fun _ => ⟨0, rfl⟩, nofun⟩

theorem strict_submit_accepted_iff_waiting :
    (CanBeAccepted (.manager 1 1 "pool") 2 1 callsWaiting ↔ 1 ≤ 1) ∧
      CanBeAccepted (.manager 1 1 "pool") 3 2 callsWaiting := by
  have hreach : (poolMachine FairSemaphore Nat (.manager 1 1 "pool")).Reachable
      (fun s _ => harmless s = true) callsWaiting := Machine.steps_after _ _ _ _
  have hcompletes : ∀ u < callsWaiting.shared.nextTaskId,
      (callsWaiting.shared.tasks u).future.Completes := by
    intro u hu
    have hlt : u < 2 := hu
    obtain rfl | rfl : u = 0 ∨ u = 1 := by omega
    · exact TaskFuture.completes_ready 7
    · exact TaskFuture.completes_ready 8
  obtain ⟨hwaiting, hbegun⟩ := strict_submit_accepted_iff FairSemaphore Nat 1 1 "pool"
  exact ⟨hwaiting 2 1 callsWaiting hreach rfl rfl (fun u hu _ => hcompletes u hu) ⟨_, rfl, .inl rfl⟩,
    hbegun 3 _ callsWaiting le_rfl hreach rfl rfl hcompletes rfl rfl⟩

/-- The only call on a pool with queue capacity 0. -/
def waitingWithoutSlots : Pool FairSemaphore Nat :=
  let M := poolMachine FairSemaphore Nat (.manager 1 0 "pool")
  M.after (fun s _ => harmless s)
    (.call (.submit 0 ∅ (.ready 7)) :: stepping [1, 1, 1, 1, 1, 1, 1]) M.init

/-- The pool is idle, and the call can never be accepted. -/
theorem no_slot_for_idle_pool :
    (poolMachine FairSemaphore Nat (.manager 1 0 "pool")).Reachable (fun s _ => harmless s = true)
        waitingWithoutSlots ∧
      waitingWithoutSlots.shared.token = false ∧ waitingWithoutSlots.shared.messages = 0 ∧
      waitingWithoutSlots.tally Proc.running = 0 ∧ Waiting 1 0 waitingWithoutSlots ∧
      ¬CanBeAccepted (.manager 1 0 "pool") 1 0 waitingWithoutSlots := by
  have hreach : (poolMachine FairSemaphore Nat (.manager 1 0 "pool")).Reachable
      (fun s _ => harmless s = true) waitingWithoutSlots := Machine.steps_after _ _ _ _
  have hwaits : Waiting 1 0 waitingWithoutSlots := ⟨_, rfl, .inl rfl⟩
  refine ⟨hreach, rfl, rfl, rfl, hwaits, ?_⟩
  rintro ⟨s', c, hsteps, hc, hpc⟩
  obtain ⟨c', hc', hstill⟩ := waiting_forever rfl rfl hreach rfl rfl hwaits hsteps
  obtain rfl := Proc.submit.inj (Option.some.inj (hc.symm.trans hc'))
  rcases hstill with hstill | hstill <;> cases hpc.symm.trans hstill

end FuturesOrchestra
