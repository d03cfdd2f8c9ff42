import FuturesOrchestra.Proofs.DeliveryOrder

/-!
# Handlers that use the pool

The worker runs the handlers under the read guard of their list. A handler that makes any
calls but `add_completion_handler` never keeps the worker from going on: what the worker waits
for is then held by threads that wait for nobody. A handler that registers another one waits for
the guard of the worker it runs in.
-/

namespace FuturesOrchestra

open Interleaving

variable {cfg : PoolConfig} {core : Nat → TaskCore} {body : Nat → List ManagerCall}
  {pid w k : Nat} {sh sh' : NotifierState} {sp : Option NotifierProc}

/-! ## Waiting -/

/-- The guard that the next step of a call takes. -/
def CallPc.wants (cfg : PoolConfig) (sh : NotifierState) : CallPc → Option (LockName × GuardMode)
  | .getOrInit _ => if sh.initialized then none else some (.cell, .write)
  | .initLock _ | .nameLock _ | .take => some (.init, .write)
  | .writeLock _ => some (.handlers, .write)
  | .sweep i => if i < cfg.shards then some (.registry i, .read) else none
  | .count => some (.registry 0, .read)
  | .modify i => some (.registry i, .write)
  | _ => none

def NotifierProc.wants (cfg : PoolConfig) (sh : NotifierState) :
    NotifierProc → Option (LockName × GuardMode)
  | .worker ⟨_, .lock _⟩ => some (.handlers, .read)
  | .worker ⟨_, .body _ _ call _⟩ => call.wants cfg sh
  | .worker _ => none
  | .caller pc => pc.wants cfg sh

/-- Thread `i` waits for thread `j`. -/
abbrev WaitsFor (cfg : PoolConfig) (s : NotifierSystem) : Nat → Nat → Prop :=
  Waits NotifierState.guards (NotifierProc.wants cfg s.shared) s

/-- A call in progress can take its next step, unless it waits for a guard. -/
theorem CallPc.step_or_wants (cfg : PoolConfig) (pid : Nat) (sh : NotifierState) {pc : CallPc}
    (hpc : pc ≠ .returned) : (∃ r, pc.step cfg pid sh = some r) ∨
      ∃ lock mode, pc.wants cfg sh = some (lock, mode) ∧ Guard.free sh.guards lock mode = false := by
  have hacquire : ∀ (lock : LockName) (mode : GuardMode)
      (f : NotifierState → NotifierState × CallPc × Option NotifierProc),
      pc.wants cfg sh = some (lock, mode) →
      (∃ r, (sh.acquire pid lock mode).map f = some r) ∨ ∃ lock mode,
        pc.wants cfg sh = some (lock, mode) ∧ Guard.free sh.guards lock mode = false := by
    intro lock mode f hwants
    unfold NotifierState.acquire
    cases hfree : Guard.free sh.guards lock mode with
    | true => exact .inl ⟨_, rfl⟩
    | false => exact .inr ⟨lock, mode, hwants, hfree⟩
  fun_cases CallPc.step cfg pid sh pc
  case case2 handler hinit => exact hacquire _ _ _ (if_neg hinit)
  case case10 i hlt => exact hacquire _ _ _ (if_pos hlt)
  case case20 => exact absurd rfl hpc
  all_goals first
    | exact .inl ⟨_, rfl⟩
    | exact hacquire _ _ _ rfl

/-- A thread that holds a guard of the list or of the registry in a call wants none, and its
next step gives that guard back. -/
theorem CallPc.gives_back (cfg : PoolConfig) (pid : Nat) (sh : NotifierState) {pc : CallPc}
    {lock : LockName} {mode : GuardMode} (hheld : (lock, mode) ∈ pc.holds)
    (hlock : lock = .handlers ∨ ∃ i, lock = .registry i) :
    pc.wants cfg sh = none ∧ ∃ sh' pc', pc.step cfg pid sh = some (sh', pc', none) ∧
      sh'.guards = Guard.release pid lock mode sh.guards := by
  cases pc with
  | writeHeld | sweepHeld | countHeld | modifyHeld =>
    cases List.mem_singleton.mp hheld
    exact ⟨rfl, _, _, rfl, rfl⟩
  | initLock | cellHeld | nameHeld | takeHeld =>
    cases List.mem_singleton.mp hheld
    rcases hlock with heq | ⟨i, heq⟩ <;> cases heq
  | initHeld =>
    rcases hlock with rfl | ⟨i, rfl⟩
    · simp [holds] at hheld
    · simp [holds] at hheld
  | _ => cases hheld

/-! ## Handlers without registrations -/

def ManagerCall.plain : ManagerCall → Bool
  | .addCompletionHandler _ => false
  | _ => true

/-- The handler registers no other one. -/
def plainHandler (body : Nat → List ManagerCall) (h : Nat) : Bool :=
  (body h).all ManagerCall.plain

/-- The handlers that the outside registers register no others. -/
def registersPlain (body : Nat → List ManagerCall) (_ : NotifierSystem) : NotifierEvent → Bool
  | .call (.manager (.addCompletionHandler h)) => plainHandler body h
  | _ => true

/-- The handler that a call is going to register. -/
def CallPc.registers : CallPc → Option Nat
  | .getOrInit h | .initLock h | .initHeld h | .cellHeld h | .nameLock h | .nameHeld h
  | .writeLock h | .writeHeld h => some h
  | _ => none

/-- The call takes at most read guards of the registry. -/
def CallPc.reading : CallPc → Bool
  | .sweep _ | .sweepHeld _ | .count | .countHeld | .load | .returned => true
  | _ => false

/-- What the thread runs or is going to run registers nothing but plain handlers, and nothing at
all inside a handler. -/
def NotifierProc.Plain (body : Nat → List ManagerCall) : NotifierProc → Prop
  | .worker ⟨_, .deliver _ rest⟩ => ∀ h ∈ rest, plainHandler body h = true
  | .worker ⟨_, .body _ rest call calls⟩ =>
    (∀ h ∈ rest, plainHandler body h = true) ∧ call.reading = true ∧
      ∀ c ∈ calls, c.plain = true
  | .worker _ => True
  | .caller pc => ∀ h, pc.registers = some h → plainHandler body h = true

/-- A step of a call registers at most the handler that the call is about. -/
theorem CallPc.registers_step {pc pc' : CallPc} (h : pc.step cfg pid sh = some (sh', pc', sp)) :
    (∀ j, pc'.registers = some j → pc.registers = some j) ∧
      ∀ j ∈ sh'.handlers, j ∈ sh.handlers ∨ pc.registers = some j := by
  revert h
  fun_cases CallPc.step cfg pid sh pc
  case case9 handler =>
    rintro ⟨⟩
    refine ⟨by rintro j ⟨⟩, fun j hj => ?_⟩
    rcases List.mem_append.mp hj with hold | hnew
    · exact .inl hold
    · exact .inr (congrArg some (List.mem_singleton.mp hnew).symm)
  all_goals intro h
  all_goals first
    | (cases h
       exact ⟨fun _ hj => hj, fun _ hj => .inl hj⟩)
    | (obtain ⟨sh₁, hacquire, heq⟩ := Option.map_eq_some_iff.mp h
       obtain ⟨-, rfl⟩ := NotifierState.acquire_eq_some hacquire
       cases heq
       exact ⟨fun _ hj => hj, fun _ hj => .inl hj⟩)
    | cases h

theorem CallPc.reading_step {pc pc' : CallPc} (hpc : pc.reading = true)
    (h : pc.step cfg pid sh = some (sh', pc', sp)) : pc'.reading = true := by
  revert h
  fun_cases CallPc.step cfg pid sh pc
  case case10 | case13 =>
    intro h
    obtain ⟨sh₁, -, heq⟩ := Option.map_eq_some_iff.mp h
    cases heq
    rfl
  case case20 => rintro ⟨⟩
  case case11 | case12 | case14 | case19 =>
    rintro ⟨⟩
    rfl
  all_goals cases hpc

theorem CallPc.registers_of_reading {pc : CallPc} (hpc : pc.reading = true) :
    pc.registers = none := by
  cases pc with
  | sweep | sweepHeld | count | countHeld | load | returned => rfl
  | _ => cases hpc

theorem ManagerCall.start_reading {c : ManagerCall} (hc : c.plain = true) (kind : PoolKind) :
    (c.start kind).reading = true := by
  cases c with
  | addCompletionHandler h => cases hc
  | cancelTasksByLabels labels =>
    show (if labels = ∅ then CallPc.returned else .sweep 0).reading = true
    split <;> rfl
  | activeTaskCount => cases kind <;> rfl
  | _ => rfl

/-- A call that is no registration registers nothing. -/
theorem ManagerCall.start_registers {c : ManagerCall} {kind : PoolKind} {j : Nat}
    (h : (c.start kind).registers = some j) : c = .addCompletionHandler j := by
  cases c with
  | addCompletionHandler h' =>
    cases h
    rfl
  | _ =>
    rw [CallPc.registers_of_reading (ManagerCall.start_reading rfl kind)] at h
    cases h

/-- All that is registered, and all that runs, is plain. -/
structure PlainSystem (body : Nat → List ManagerCall) (s : NotifierSystem) : Prop where
  handlers : ∀ h ∈ s.shared.handlers, plainHandler body h = true
  procs : ∀ pid p, s.At pid p → p.Plain body

theorem NotifierProc.Step.plain {b : WorkerSignal} {p p' : NotifierProc} (hp : p.Plain body)
    (hhandlers : ∀ h ∈ sh.handlers, plainHandler body h = true)
    (h : Step cfg core body b pid sh p sh' p' sp) :
    p'.Plain body ∧ ∀ j ∈ sh'.handlers, plainHandler body j = true := by
  cases h with
  | @worker w _ w' _ hstep =>
    obtain ⟨signaled, pc⟩ := w
    cases hstep with
    | recv hpc | closed hpc | empty hpc | token hpc | delivered hpc =>
      exact ⟨trivial, hhandlers⟩
    | lock hpc hfree => exact ⟨hhandlers, hhandlers⟩
    | @invoke info h rest hpc =>
      obtain rfl : pc = _ := hpc
      have hplain := List.all_eq_true.mp (hp h List.mem_cons_self)
      exact ⟨⟨fun j hj => hp j (List.mem_cons_of_mem h hj), rfl, hplain⟩, hhandlers⟩
    | @start info rest c calls hpc =>
      obtain rfl : pc = _ := hpc
      obtain ⟨hrest, -, hcalls⟩ := hp
      refine ⟨⟨hrest, ?_, fun d hd => hcalls d (List.mem_cons_of_mem c hd)⟩, hhandlers⟩
      exact ManagerCall.start_reading (hcalls c List.mem_cons_self) cfg.kind
    | finish hpc =>
      obtain rfl : pc = _ := hpc
      exact ⟨hp.1, hhandlers⟩
    | @call info rest call calls _ call' _ hpc hcall =>
      obtain rfl : pc = _ := hpc
      obtain ⟨hrest, hreading, hcalls⟩ := hp
      refine ⟨⟨hrest, CallPc.reading_step hreading hcall, hcalls⟩, fun j hj => ?_⟩
      rcases (CallPc.registers_step hcall).2 j hj with hold | hnew
      · exact hhandlers j hold
      · rw [CallPc.registers_of_reading hreading] at hnew
        cases hnew
  | @panic w info rest calls hpc =>
    obtain ⟨signaled, pc⟩ := w
    obtain rfl : pc = _ := hpc
    exact ⟨hp.1, hhandlers⟩
  | unwind => exact ⟨trivial, hhandlers⟩
  | @caller pc _ pc' _ hstep =>
    obtain ⟨hregisters, hadded⟩ := CallPc.registers_step hstep
    refine ⟨fun j hj => hp j (hregisters j hj), fun j hj => ?_⟩
    rcases hadded j hj with hold | hnew
    · exact hhandlers j hold
    · exact hp j hnew

/-- What the worker waits for, and what it holds then. -/
theorem NotifierProc.worker_wants {loop : WorkerLoop} {lock : LockName} {mode : GuardMode}
    (hplain : (NotifierProc.worker loop).Plain body)
    (h : (NotifierProc.worker loop).wants cfg sh = some (lock, mode)) :
    (lock = .handlers ∧ (NotifierProc.worker loop).holds = []) ∨
      ∃ i, lock = .registry i ∧ (NotifierProc.worker loop).holds = [(.handlers, .read)] := by
  obtain ⟨signaled, pc⟩ := loop
  cases pc with
  | lock msg =>
    cases h
    exact .inl ⟨rfl, rfl⟩
  | body info rest call calls =>
    obtain ⟨-, hreading, -⟩ := hplain
    have hcall : call.wants cfg sh = some (lock, mode) := h
    cases call with
    | sweep i =>
      simp only [CallPc.wants] at hcall
      split at hcall
      · cases hcall
        exact .inr ⟨i, rfl, rfl⟩
      · cases hcall
    | count =>
      cases hcall
      exact .inr ⟨0, rfl, rfl⟩
    | sweepHeld | countHeld | load | returned => cases hcall
    | _ => cases hreading
  | _ => cases h

section Runs

variable {s s' : NotifierSystem} {ok : NotifierSystem → NotifierEvent → Prop}
  {p p' : NotifierProc}

theorem plain_system
    (h : (notifierMachine cfg core body).Reachable (fun s a => registersPlain body s a = true) s) :
    PlainSystem body s := by
  refine Program.induct (I := PlainSystem body) ?_ ?_ h
    ⟨fun h hh => (nomatch hh), fun pid p hp => (nomatch hp)⟩
  · intro s b pid p sh p' sp hs _ hp hrun
    have hstep := NotifierProc.step_of_run hrun
    obtain ⟨hself, hhandlers⟩ := hstep.plain (hs.procs pid p hp) hs.handlers
    refine ⟨hhandlers, fun qid q hq => ?_⟩
    rcases Threads.update_getElem? hp hq with ⟨-, rfl⟩ | ⟨-, hold⟩ | ⟨-, rfl⟩
    · exact hself
    · exact hs.procs qid q hold
    · rw [hstep.started]
      trivial
  · intro s c sh sp hs hok hcall
    obtain ⟨-, -, hhandlers, -⟩ := NotifierCall.enter_beside hcall
    refine ⟨fun h hh => hs.handlers h (hhandlers ▸ hh), fun qid q hq => ?_⟩
    rcases Threads.spawn_getElem? hq with hold | ⟨-, rfl⟩
    · exact hs.procs qid q hold
    · cases c with
      | manager c =>
        cases hcall
        intro j hj
        obtain rfl := ManagerCall.start_registers hj
        exact hok
      | modifyRegistry | awaitShutdown =>
        cases hcall
        exact fun j hj => (nomatch hj)
      | cancelToken => cases hcall
      | cloneSender | dropSender =>
        obtain ⟨-, hnone⟩ := Option.ite_none_left_eq_some.mp hcall
        cases hnone
      | send =>
        obtain ⟨-, hsent⟩ := Option.ite_none_left_eq_some.mp hcall
        split at hsent <;> cases hsent

/-- A guard that keeps the worker waiting belongs to a call of another thread, and is one of the
list or of the registry. -/
theorem holder_of_waiting {loop : WorkerLoop} {lock : LockName} {mode : GuardMode}
    {g : Guard LockName} (hreach : (notifierMachine cfg core body).Reachable ok s)
    (hs : PlainSystem body s) (hw : s.At w (.worker loop))
    (hwants : (NotifierProc.worker loop).wants cfg s.shared = some (lock, mode))
    (hg : g ∈ s.shared.guards) (hblocks : g.compatible lock mode = false) :
    ∃ pc, s.At g.thread (.caller pc) ∧ (g.lock, g.mode) ∈ pc.holds ∧
      (g.lock = .handlers ∨ ∃ i, g.lock = .registry i) := by
  have hlock : g.lock = lock := by
    by_contra hne
    rw [Guard.compatible, bne_iff_ne.mpr hne] at hblocks
    cases hblocks
  obtain ⟨q, hq, hheld⟩ := (guarded hreach).held g hg
  have hwanted := NotifierProc.worker_wants (hs.procs w _ hw) hwants
  cases q with
  | caller pc =>
    refine ⟨pc, hq, hheld, ?_⟩
    rcases hwanted with ⟨rfl, -⟩ | ⟨i, rfl, -⟩
    · exact .inl hlock
    · exact .inr ⟨i, hlock⟩
  | worker loop' =>
    -- the worker is the only one, and does not hold what it wants
    obtain rfl := sole_worker hreach hw hq
    obtain rfl := NotifierProc.worker.inj (Option.some.inj (hw.symm.trans hq))
    rcases hwanted with ⟨-, hnone⟩ | ⟨i, rfl, hlist⟩
    · rw [hnone] at hheld
      cases hheld
    · rw [hlist, List.mem_singleton] at hheld
      cases (congrArg Prod.fst hheld).symm.trans hlock

/-- The steps that let the worker go on: its own, and those of the threads that hold a guard. -/
def letsWorkerOn (w : Nat) (s : NotifierSystem) (a : NotifierEvent) : Prop :=
  ∃ pid p, a = .run .step pid ∧ s.At pid p ∧ (pid = w ∨ p.holds ≠ [])

/-! ## The way of a message -/

/-- How many steps a call takes that only reads. -/
def CallPc.steps (cfg : PoolConfig) : CallPc → Nat
  | .sweep i => 2 * (cfg.shards - i) + 1
  | .sweepHeld i => 2 * (cfg.shards - (i + 1)) + 2
  | .count => 2
  | .countHeld | .load => 1
  | _ => 0

def callsSteps (cfg : PoolConfig) (calls : List ManagerCall) : Nat :=
  (calls.map fun c => (c.start cfg.kind).steps cfg + 1).sum

/-- How many steps the delivery takes to some handlers that only read. -/
def deliverySteps (cfg : PoolConfig) (body : Nat → List ManagerCall) (rest : List Nat) : Nat :=
  (rest.map fun h => callsSteps cfg (body h) + 2).sum + 1

/-- How many steps the worker takes until it receives again, once it holds the list. -/
def WorkerPc.steps (cfg : PoolConfig) (body : Nat → List ManagerCall) : WorkerPc → Nat
  | .token => 1
  | .deliver _ rest => deliverySteps cfg body rest
  | .body _ rest call calls => call.steps cfg + callsSteps cfg calls + 1 + deliverySteps cfg body rest
  | _ => 0

/-- Whether the worker waits for the list. -/
def WorkerPc.locking : WorkerPc → Nat
  | .lock _ => 1
  | _ => 0

theorem CallPc.steps_lt {pc pc' : CallPc} (hpc : pc.reading = true)
    (h : pc.step cfg pid sh = some (sh', pc', sp)) : pc'.steps cfg < pc.steps cfg := by
  revert h
  fun_cases CallPc.step cfg pid sh pc
  case case10 i hlt =>
    intro h
    obtain ⟨sh₁, -, heq⟩ := Option.map_eq_some_iff.mp h
    cases heq
    show 2 * (cfg.shards - (i + 1)) + 2 < 2 * (cfg.shards - i) + 1
    omega
  case case13 =>
    intro h
    obtain ⟨sh₁, -, heq⟩ := Option.map_eq_some_iff.mp h
    cases heq
    exact Nat.lt_add_one 1
  case case11 i _ =>
    rintro ⟨⟩
    exact Nat.succ_pos _
  case case12 i =>
    rintro ⟨⟩
    exact Nat.lt_add_one _
  case case14 | case19 =>
    rintro ⟨⟩
    exact Nat.zero_lt_one
  case case20 => rintro ⟨⟩
  all_goals cases hpc

/-- A worker that is not receiving takes its next step, or waits for a guard. -/
theorem WorkerLoop.advances (cfg : PoolConfig) (core : Nat → TaskCore) (pid : Nat)
    (sh : NotifierState) {loop : WorkerLoop} (hplain : (NotifierProc.worker loop).Plain body)
    (hrecv : loop.pc ≠ .recv) (hended : loop.pc ≠ .ended) (halive : loop.pc ≠ .unwound) :
    (∃ sh' loop', loop.step cfg core body pid sh = some (sh', loop', none) ∧
      loop'.pc ≠ .unwound ∧ sh'.sent = sh.sent ∧ sh'.taken = sh.taken ∧
      Prod.Lex (· < ·) (· < ·) (loop'.pc.locking, loop'.pc.steps cfg body)
        (loop.pc.locking, loop.pc.steps cfg body)) ∨
    ∃ lock mode, (NotifierProc.worker loop).wants cfg sh = some (lock, mode) ∧
      Guard.free sh.guards lock mode = false := by
  obtain ⟨signaled, pc⟩ := loop
  cases pc with
  | recv => exact absurd rfl hrecv
  | ended => exact absurd rfl hended
  | unwound => exact absurd rfl halive
  | token => exact .inl ⟨_, _, rfl, by rintro ⟨⟩, rfl, rfl, .right _ Nat.zero_lt_one⟩
  | lock msg =>
    cases hfree : Guard.free sh.guards .handlers .read with
    | true =>
      refine .inl ⟨{ sh with guards := ⟨pid, .handlers, .read⟩ :: sh.guards },
        ⟨signaled, .deliver (msg.publicInfo (core msg.core)) sh.handlers⟩, ?_, by rintro ⟨⟩, rfl, rfl,
        .left _ _ Nat.zero_lt_one⟩
      simp [WorkerLoop.step, NotifierState.acquire, hfree, WorkerLoop.goto]
    | false => exact .inr ⟨.handlers, .read, rfl, hfree⟩
  | deliver info rest =>
    cases rest with
    | nil => exact .inl ⟨_, _, rfl, by rintro ⟨⟩, rfl, rfl, .right _ Nat.zero_lt_one⟩
    | cons h rest =>
      refine .inl ⟨_, _, rfl, by rintro ⟨⟩, rfl, rfl, .right _ ?_⟩
      show 0 + callsSteps cfg (body h) + 1 + deliverySteps cfg body rest <
        deliverySteps cfg body (h :: rest)
      rw [deliverySteps, deliverySteps, List.map_cons, List.sum_cons]
      omega
  | body info rest call calls =>
    by_cases hcall : call = .returned
    · subst hcall
      cases calls with
      | nil =>
        refine .inl ⟨_, _, rfl, by rintro ⟨⟩, rfl, rfl, .right _ ?_⟩
        show deliverySteps cfg body rest < 0 + 0 + 1 + deliverySteps cfg body rest
        omega
      | cons c calls =>
        refine .inl ⟨_, _, rfl, by rintro ⟨⟩, rfl, rfl, .right _ ?_⟩
        show (c.start cfg.kind).steps cfg + callsSteps cfg calls + 1 + deliverySteps cfg body rest <
          0 + callsSteps cfg (c :: calls) + 1 + deliverySteps cfg body rest
        rw [callsSteps, callsSteps, List.map_cons, List.sum_cons]
        omega
    · obtain ⟨-, hreading, -⟩ := hplain
      rcases CallPc.step_or_wants cfg pid sh hcall with ⟨⟨sh', call', sp⟩, hstep⟩ | hwaits
      · have hbeside := CallPc.beside hstep
        have hstarting : call.starting = 0 := by
          cases call with
          | initLock | initHeld => cases hreading
          | _ => rfl
        obtain ⟨-, rfl⟩ := CallPc.senders_kept hstep hstarting
        refine .inl ⟨sh', ⟨signaled, .body info rest call' calls⟩, ?_, by rintro ⟨⟩, hbeside.sent,
          hbeside.taken, .right _ ?_⟩
        · cases call with
          | returned => exact absurd rfl hcall
          | _ => simp [WorkerLoop.step, hstep, WorkerLoop.goto]
        · have hlt := CallPc.steps_lt hreading hstep
          show call'.steps cfg + _ + 1 + _ < call.steps cfg + _ + 1 + _
          omega
      · exact .inr hwaits

/-- What is left of the way of message `k`: the messages before it, the list that the worker
waits for, the rest of the delivery, and the guards in its way. -/
def wayLeft (cfg : PoolConfig) (body : Nat → List ManagerCall) (w k : Nat) (s : NotifierSystem) :
    Nat × (Nat × Nat) × Nat :=
  match s.procs[w]? with
  | some (.worker loop) => (k + 1 - s.shared.taken,
      (loop.pc.locking, loop.pc.steps cfg body), s.shared.guards.length)
  | _ => (0, (0, 0), 0)

/-- The worker has passed message `k` and receives again, or has ended. -/
def Passed (w k : Nat) (s : NotifierSystem) : Prop :=
  k < s.shared.taken ∧ ∃ loop, s.At w (.worker loop) ∧ (loop.pc = .recv ∨ loop.pc = .ended)

/-- A run of plain handlers whose worker no panic has ended, and in which message `k` is on its
way. -/
structure OnItsWay (cfg : PoolConfig) (core : Nat → TaskCore) (body : Nat → List ManagerCall)
    (w k : Nat) (s : NotifierSystem) : Prop where
  reach : (notifierMachine cfg core body).Reachable (fun s a => registersPlain body s a = true) s
  worker : ∃ loop, s.At w (.worker loop) ∧ loop.pc ≠ .unwound
  sent : k < s.shared.sent.length
  ahead : ¬Passed w k s

theorem wayLeft_of_worker {loop : WorkerLoop} (hw : s.At w (.worker loop)) :
    wayLeft cfg body w k s = (k + 1 - s.shared.taken,
      (loop.pc.locking, loop.pc.steps cfg body), s.shared.guards.length) := by
  rw [wayLeft, hw]

/-- A step of the worker, or of a thread that holds a guard, that shortens the way. -/
theorem OnItsWay.advances_by (hs : OnItsWay cfg core body w k s) {pid : Nat} {p : NotifierProc}
    (sh : NotifierState) (p' : NotifierProc) {loop : WorkerLoop} (hp : s.At pid p)
    (hlets : pid = w ∨ p.holds ≠ [])
    (hrun : NotifierProc.run cfg core body .step pid s.shared p = some (sh, p', none))
    (hw : (s.update pid sh p' none).At w (.worker loop)) (halive : loop.pc ≠ .unwound)
    (hsent : sh.sent = s.shared.sent)
    (hlt : Prod.Lex (· < ·) (Prod.Lex (Prod.Lex (· < ·) (· < ·)) (· < ·))
      (k + 1 - sh.taken, (loop.pc.locking, loop.pc.steps cfg body), sh.guards.length)
      (wayLeft cfg body w k s)) :
    ∃ a s', letsWorkerOn w s a ∧ (notifierMachine cfg core body).step s a = some s' ∧
      (Passed w k s' ∨ OnItsWay cfg core body w k s' ∧
        Prod.Lex (· < ·) (Prod.Lex (Prod.Lex (· < ·) (· < ·)) (· < ·)) (wayLeft cfg body w k s')
          (wayLeft cfg body w k s)) := by
  have hnext : (notifierMachine cfg core body).step s (.run .step pid) =
      some (s.update pid sh p' none) := Program.step_of_run hp hrun
  refine ⟨.run .step pid, _, ⟨pid, p, rfl, hp, hlets⟩, hnext, ?_⟩
  by_cases hpassed : Passed w k (s.update pid sh p' none)
  · exact .inl hpassed
  · refine .inr ⟨⟨hs.reach.tail rfl hnext, ⟨loop, hw, halive⟩, ?_, hpassed⟩, ?_⟩
    · rw [Threads.update_shared, hsent]
      exact hs.sent
    · rw [wayLeft_of_worker hw]
      exact hlt

/-- As long as the message is on its way, the worker or a thread in its way has a step that
shortens it. -/
theorem OnItsWay.advances (hs : OnItsWay cfg core body w k s) :
    ∃ a s', letsWorkerOn w s a ∧ (notifierMachine cfg core body).step s a = some s' ∧
      (Passed w k s' ∨ OnItsWay cfg core body w k s' ∧
        Prod.Lex (· < ·) (Prod.Lex (Prod.Lex (· < ·) (· < ·)) (· < ·)) (wayLeft cfg body w k s')
          (wayLeft cfg body w k s)) := by
  obtain ⟨loop, hw, halive⟩ := hs.worker
  have hplain := plain_system hs.reach
  by_cases hrecv : loop.pc = .recv
  · -- the next message is there
    have htaken : s.shared.taken ≤ k := by
      by_contra hlt
      exact hs.ahead ⟨Nat.lt_of_not_le hlt, loop, hw, .inl hrecv⟩
    have hlt := htaken.trans_lt hs.sent
    have hmsg := List.getElem?_eq_getElem hlt
    refine hs.advances_by { s.shared with taken := s.shared.taken + 1 }
      (.worker (loop.goto (.lock s.shared.sent[s.shared.taken]))) hw (.inl rfl) ?_
      (Threads.update_self hw) (by rintro ⟨⟩) rfl ?_
    · simp [NotifierProc.run, WorkerLoop.step, hrecv, hmsg]
    · rw [wayLeft_of_worker hw]
      refine .left _ _ ?_
      show k + 1 - (s.shared.taken + 1) < k + 1 - s.shared.taken
      omega
  · have hended : loop.pc ≠ .ended := by
      intro hpc
      have hconsumed := ((consumed hs.reach).agrees w loop hw).ended hpc
      exact hs.ahead ⟨hconsumed.2 ▸ hs.sent, loop, hw, .inr hpc⟩
    rcases WorkerLoop.advances cfg core w s.shared (hplain.procs w _ hw) hrecv hended halive with
      ⟨sh', loop', hstep, halive', hsent', htaken', hlt⟩ | ⟨lock, mode, hwants, hfree⟩
    · refine hs.advances_by sh' (.worker loop') hw (.inl rfl) ?_ (Threads.update_self hw) halive'
        hsent' ?_
      · simp [NotifierProc.run, hstep]
      · rw [wayLeft_of_worker hw, htaken']
        exact .right _ (.left _ _ hlt)
    · -- the thread in the way gives its guard back
      obtain ⟨g, hg, hblocks⟩ := Guard.exists_of_not_free hfree
      obtain ⟨pc, hq, hheld, hlock⟩ := holder_of_waiting hs.reach hplain hw hwants hg hblocks
      obtain ⟨-, sh', pc', hstep, hguards⟩ :=
        CallPc.gives_back cfg g.thread s.shared hheld hlock
      have hbeside := CallPc.beside hstep
      have hne : w ≠ g.thread := by
        intro heq
        cases (heq ▸ hw).symm.trans hq
      refine hs.advances_by sh' (.caller pc') hq (.inr (List.ne_nil_of_mem hheld)) ?_
        (Threads.update_other hne hw) halive hbeside.sent ?_
      · simp [NotifierProc.run, hstep]
      · rw [wayLeft_of_worker hw, hbeside.taken]
        refine .right _ (.right _ ?_)
        rw [hguards]
        exact List.length_filter_lt_length_iff_exists.mpr ⟨g, hg, by simp⟩

/-- What the worker waits for is held by threads that wait for nobody. -/
theorem no_wait_behind {loop : WorkerLoop} (hreach : (notifierMachine cfg core body).Reachable ok s)
    (hs : PlainSystem body s) (hw : s.At w (.worker loop)) (j : Nat) (hj : WaitsFor cfg s w j)
    (i : Nat) : ¬WaitsFor cfg s j i := by
  obtain ⟨p, lock, mode, hp, hwants, g, hg, rfl, hblocks⟩ := hj
  obtain rfl := Option.some.inj (hw.symm.trans hp)
  obtain ⟨pc, hq, hheld, hlock⟩ := holder_of_waiting hreach hs hw hwants hg hblocks
  rintro ⟨q, lock', mode', hq', hwants', -⟩
  obtain rfl := Option.some.inj (hq.symm.trans hq')
  obtain ⟨hnone, -⟩ := CallPc.gives_back cfg g.thread s.shared hheld hlock
  cases hnone.symm.trans hwants'

/-! ## Handlers that register handlers -/

/-- The worker is in a handler that registers another one, and waits for the write guard. -/
def Registering (w : Nat) (s : NotifierSystem) : Prop :=
  ∃ signaled info rest h calls, s.At w (.worker ⟨signaled, .body info rest (.writeLock h) calls⟩)

theorem Registering.waits (hreach : (notifierMachine cfg core body).Reachable ok s)
    (hs : Registering w s) : WaitsFor cfg s w w := by
  obtain ⟨signaled, info, rest, h, calls, hw⟩ := hs
  exact ⟨_, .handlers, .write, hw, rfl, ⟨w, .handlers, .read⟩,
    (guarded hreach).holding w _ (.handlers, .read) hw List.mem_cons_self, rfl, rfl⟩

/-- It waits for ever. -/
theorem Registering.forever (hreach : (notifierMachine cfg core body).Reachable Machine.anyStep s)
    (hs : Registering w s) (h : (notifierMachine cfg core body).Steps Machine.anyStep s s') :
    Registering w s' ∧ s'.shared.taken = s.shared.taken := by
  have hall : (notifierMachine cfg core body).Reachable Machine.anyStep s' ∧ Registering w s' ∧
      s'.shared.taken = s.shared.taken := by
    refine h.invariant (I := fun u => (notifierMachine cfg core body).Reachable Machine.anyStep u ∧
      Registering w u ∧ u.shared.taken = s.shared.taken) ?_ ⟨hreach, hs, rfl⟩
    rintro u a v ⟨hu, hwait, htaken⟩ - hnext
    obtain ⟨signaled, info, rest, handler, calls, hw⟩ := hwait
    have hguard := (guarded hu).holding w _ (.handlers, .read) hw List.mem_cons_self
    refine ⟨hu.tail trivial hnext, ?_⟩
    cases a with
    | run b pid =>
      obtain ⟨p, sh, p', sp, hp, hrun, rfl⟩ := Program.step_run hnext
      cases NotifierProc.step_of_run hrun with
      | @worker loop _ _ _ hstep =>
        obtain rfl := sole_worker hu hw hp
        obtain rfl := NotifierProc.worker.inj (Option.some.inj (hw.symm.trans hp))
        cases hstep with
        | call hpc hcall =>
          -- its own read guard is in the way
          cases hpc
          obtain ⟨sh₁, hacquire, -⟩ := Option.map_eq_some_iff.mp hcall
          obtain ⟨hfree, -⟩ := NotifierState.acquire_eq_some hacquire
          cases List.all_eq_true.mp hfree _ hguard
        | recv hpc | closed hpc | empty hpc | token hpc | lock hpc | invoke hpc | delivered hpc
        | start hpc | finish hpc => cases hpc
      | @panic loop _ _ _ hpc | @unwind loop _ _ _ _ hpc =>
        obtain rfl := sole_worker hu hw hp
        obtain rfl := NotifierProc.worker.inj (Option.some.inj (hw.symm.trans hp))
        cases hpc
      | caller hstep =>
        have hne : w ≠ pid := by
          rintro rfl
          cases hw.symm.trans hp
        refine ⟨⟨signaled, info, rest, handler, calls, Threads.update_other hne hw⟩, ?_⟩
        rw [Threads.update_shared, (CallPc.beside hstep).taken, htaken]
    | call c =>
      obtain ⟨sh, sp, hcall, rfl⟩ := Program.step_call hnext
      refine ⟨⟨signaled, info, rest, handler, calls, Threads.spawn_other hw⟩, ?_⟩
      rw [Threads.spawn_shared, (NotifierCall.enter_beside hcall).1, htaken]
  exact hall.2

end Runs

/-- Handlers may use the pool, unless they register handlers. In every run in which the handlers
that are registered make any calls but `add_completion_handler`: the worker is in no cycle of
threads that wait for each other, and unless a panic has ended it, every message in the queue is
passed in some continuation that takes steps of the worker and of the threads holding a guard
only. -/
theorem handlers_may_use_pool (cfg : PoolConfig) (core : Nat → TaskCore)
    (body : Nat → List ManagerCall) (s : NotifierSystem) (w : Nat) (loop : WorkerLoop)
    (h : (notifierMachine cfg core body).Reachable (fun s a => registersPlain body s a = true) s)
    (hw : s.At w (.worker loop)) :
    ¬Relation.TransGen (WaitsFor cfg s) w w ∧
      (loop.pc ≠ .unwound → ∀ k, k < s.shared.sent.length →
        ∃ s', (notifierMachine cfg core body).Steps (letsWorkerOn w) s s' ∧ Passed w k s') := by
  refine ⟨not_waits_cycle (no_wait_behind h (plain_system h) hw), fun halive k hk => ?_⟩
  by_cases hpassed : Passed w k s
  · exact ⟨s, .refl, hpassed⟩
  · have hway : OnItsWay cfg core body w k s := ⟨h, ⟨loop, hw, halive⟩, hk, hpassed⟩
    exact Machine.exists_steps_of_rank (Nat.lt_wfRel.wf.prod_lex
      ((Nat.lt_wfRel.wf.prod_lex Nat.lt_wfRel.wf).prod_lex Nat.lt_wfRel.wf)) (wayLeft cfg body w k)
      (I := OnItsWay cfg core body w k) (fun _ hs => hs.advances) hway

/-- A pool whose handler 0 cancels by label and counts. -/
def countingBody : Nat → List ManagerCall
  | 0 => [.cancelTasksByLabels {"red"}, .activeTaskCount, .cancel 0]
  | _ => []

/-- Handler 0 runs for a message, a second one waits, and another thread is registering a
handler. -/
def countingRuns : NotifierSystem :=
  let M := notifierMachine (.manager 1 1 "pool") (fun t => .new (UInt64.ofNat t) ∅) countingBody
  M.after (registersPlain countingBody)
    (.call (.manager (.addCompletionHandler 0)) :: List.replicate 8 (.run .step 0) ++
      [.call (.send ⟨"pool", 0, .success⟩), .call (.send ⟨"pool", 1, .success⟩)] ++
      List.replicate 5 (.run .step 1) ++
      .call (.manager (.addCompletionHandler 1)) :: List.replicate 3 (.run .step 2)) M.init

theorem handlers_may_use_pool_counting :
    ¬Relation.TransGen (WaitsFor (.manager 1 1 "pool") countingRuns) 1 1 ∧
      ∃ s', (notifierMachine (.manager 1 1 "pool") (fun t => .new (UInt64.ofNat t) ∅)
        countingBody).Steps (letsWorkerOn 1) countingRuns s' ∧ Passed 1 1 s' := by
  have hmay := handlers_may_use_pool (.manager 1 1 "pool") (fun t => .new (UInt64.ofNat t) ∅)
    countingBody countingRuns 1 ⟨false, .body ⟨0, "pool", ∅, .success⟩ [] (.sweepHeld 0)
      [.activeTaskCount, .cancel 0]⟩ (Machine.steps_after _ _ _ _) rfl
  exact ⟨hmay.1, hmay.2 (by rintro ⟨⟩) 1 (by decide)⟩

/-- A pool whose handler 0 registers handler 1. -/
def registeringBody : Nat → List ManagerCall
  | 0 => [.addCompletionHandler 1]
  | _ => []

/-- Handler 0 runs for a message and a second message waits. -/
def registeringRuns : NotifierSystem :=
  let M := notifierMachine (.manager 1 1 "pool") (fun t => .new (UInt64.ofNat t) ∅) registeringBody
  M.after (fun _ _ => true)
    (.call (.manager (.addCompletionHandler 0)) :: List.replicate 8 (.run .step 0) ++
      [.call (.send ⟨"pool", 0, .success⟩), .call (.send ⟨"pool", 1, .success⟩)] ++
      List.replicate 7 (.run .step 1)) M.init

/-- The worker waits for the guard it holds itself, and never passes the second message. -/
theorem registering_handler_blocks_worker :
    (notifierMachine (.manager 1 1 "pool") (fun t => .new (UInt64.ofNat t) ∅)
        registeringBody).Reachable Machine.anyStep registeringRuns ∧
      WaitsFor (.manager 1 1 "pool") registeringRuns 1 1 ∧
      1 < registeringRuns.shared.sent.length ∧
      ∀ s', (notifierMachine (.manager 1 1 "pool") (fun t => .new (UInt64.ofNat t) ∅)
        registeringBody).Steps Machine.anyStep registeringRuns s' → ¬Passed 1 1 s' := by
  have hreach : (notifierMachine (.manager 1 1 "pool") (fun t => .new (UInt64.ofNat t) ∅)
      registeringBody).Reachable Machine.anyStep registeringRuns := (Machine.steps_after _ _ _ _).any
  have hregistering : Registering 1 registeringRuns :=
    ⟨false, ⟨0, "pool", ∅, .success⟩, [], 1, [], rfl⟩
  refine ⟨hreach, hregistering.waits hreach, by decide, fun s' hsteps hpassed => ?_⟩
  have htaken := (hregistering.forever hreach hsteps).2
  have hone : registeringRuns.shared.taken = 1 := rfl
  have hlt := hpassed.1
  rw [htaken, hone] at hlt
  exact absurd hlt (Nat.lt_irrefl 1)

end FuturesOrchestra
