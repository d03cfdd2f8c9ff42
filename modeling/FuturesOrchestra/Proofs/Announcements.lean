import FuturesOrchestra.Lib.Broadcast
import FuturesOrchestra.Proofs.DeliveryOrder
import FuturesOrchestra.Proofs.Notification

/-!
# The notifier as an ordered broadcast

The notifier of the pool, whose handlers make no calls, and the notifier on its own, whose
handlers do, are one and the same broadcast: messages in one order, each called out to those
who are registered when the list is read for it, until a panic ends the worker.
-/

namespace FuturesOrchestra

open Interleaving

/-! ## The notifier of the pool -/

section OfPool

variable {σ R : Type} {cfg : PoolConfig} {pid : Nat} {sh sh' : Shared σ R}
  {sp : Option (Proc R)} {p p' : Proc R}

/-- The message that the worker has received and has not read the handlers for yet. -/
def NotifierPc.inHand : NotifierPc → List InternalCompletionMessage
  | .lock msg => [msg]
  | _ => []

/-- The calls that the worker of the pool still owes for the message it has read the
handlers for. -/
def NotifierPc.pending : NotifierPc → List (Nat × TaskCompletionInfo)
  | .deliver info rest => rest.map fun h => (h, info)
  | _ => []

def NotifierPc.failed : NotifierPc → Bool
  | .unwound => true
  | _ => false

def Proc.workerPc : Proc R → Option NotifierPc
  | .notifier n => some n.pc
  | _ => none

/-- Where the worker of the pool stands; one that was not started will begin with `recv`. -/
def Pool.workerPc (s : Pool σ R) : NotifierPc := s.first Proc.workerPc .recv

/-- The broadcast that the notifier of a pool is. A message counts as taken once the worker
has read the handlers for it. -/
def Shared.broadcast (sh : Shared σ R) (pc : NotifierPc) : Broadcast Nat TaskCompletionInfo where
  handlers := sh.notifier.handlers
  sent := sh.notifier.sent.map sh.info
  taken := sh.notifier.taken - pc.inHand.length
  pending := pc.pending
  calls := sh.notifier.invocations
  failed := pc.failed

/-- The view of a pool as a broadcast. -/
def Pool.broadcast (s : Pool σ R) : Broadcast Nat TaskCompletionInfo :=
  s.shared.broadcast s.workerPc

/-- The worker's own steps are turns of the broadcast. It takes a message with its handlers
when it reads the list, and a panic that ends it follows one more call. -/
theorem NotifierStep.broadcast {b : Signal} {n n' : NotifierLoop} (h : NotifierStep b sh n sh' n')
    (hhand : ∀ msg, n.pc = .lock msg →
      0 < sh.notifier.taken ∧ sh.notifier.sent[sh.notifier.taken - 1]? = some msg) :
    Broadcast.machine.StepOrStay (sh.broadcast n.pc) (sh'.broadcast n'.pc) := by
  obtain ⟨signaled, pc⟩ := n
  have hread {msg : InternalCompletionMessage} (hpc : pc = .lock msg) :
      (sh.notifier.sent.map sh.info)[sh.notifier.taken - 1]? = some (sh.info msg) ∧
        (sh.broadcast (.lock msg)).taken + 1 = sh.notifier.taken := by
    obtain ⟨hpos, hmsg⟩ := hhand msg hpc
    rw [List.getElem?_map, hmsg]
    exact ⟨rfl, Nat.sub_add_cancel hpos⟩
  cases h with
  | @skip msg hpc hhandlers =>
    obtain rfl : pc = _ := hpc
    obtain ⟨hmsg, htaken⟩ := hread rfl
    have hturn := Broadcast.Turn.take (s := sh.broadcast (.lock msg)) rfl rfl hmsg
    have hnone : (sh.broadcast (.lock msg)).handlers.map (fun h => (h, sh.info msg)) = [] :=
      List.map_eq_nil_iff.mpr hhandlers
    rw [hnone, htaken] at hturn
    exact hturn.step
  | @lock msg hpc hhandlers =>
    obtain rfl : pc = _ := hpc
    obtain ⟨hmsg, htaken⟩ := hread rfl
    have hturn := Broadcast.Turn.take (s := sh.broadcast (.lock msg)) rfl rfl hmsg
    rw [htaken] at hturn
    exact hturn.step
  | recv hpc | closed hpc | empty hpc | token hpc | delivered hpc =>
    obtain rfl : pc = _ := hpc
    exact .inl rfl
  | @invoke info handler rest hpc =>
    obtain rfl : pc = _ := hpc
    exact (Broadcast.Turn.call (s := sh.broadcast (.deliver info (handler :: rest))) rfl).step
  | @unwind info handler rest _ hpc =>
    obtain rfl : pc = _ := hpc
    exact (Broadcast.Turn.fail (s := sh.broadcast (.deliver info (handler :: rest))) 1).step

variable [Semaphore σ] {s : Pool σ R} {ok : Pool σ R → PoolEvent R → Prop}

/-- A worker that is started begins with `recv`. -/
theorem Proc.workerPc_of_started {b : Signal} {q : Proc R} {pc : NotifierPc}
    (hrun : Proc.run cfg b pid sh p = some (sh', p', some q)) (hq : q.workerPc = some pc) :
    pc = .recv := by
  cases q with
  | notifier n =>
    obtain ⟨rfl, -⟩ := Proc.started_worker hrun
    cases hq
    rfl
  | _ => cases hq

/-- The worker of a pool is where it is. -/
theorem Pool.workerPc_of_worker {n : NotifierLoop} (hreach : (poolMachine σ R cfg).Reachable ok s)
    (hn : s.At pid (.notifier n)) : s.workerPc = n.pc := by
  refine Threads.first_of_sole hn rfl fun qid q hne hq => ?_
  cases q with
  | notifier m => exact absurd (worker_unique hreach hq hn) hne
  | _ => rfl

/-- While nobody holds the read guard of the list, no calls are owed. -/
theorem pending_of_not_reading (hreach : (poolMachine σ R cfg).Reachable ok s)
    (hreading : s.shared.notifier.reading = false) : s.workerPc.pending = [] := by
  by_cases hworker : ∃ pid n, s.At pid (.notifier n)
  · obtain ⟨pid, n, hn⟩ := hworker
    rw [Pool.workerPc_of_worker hreach hn]
    have hagrees := ((listening hreach).agrees pid n hn).reading
    rw [hreading] at hagrees
    cases hpc : n.pc with
    | deliver => simp [hpc, NotifierPc.delivering] at hagrees
    | _ => rfl
  · have hnone : s.workerPc = .recv := by
      refine Threads.first_eq fun pid p hp pc hpc => ?_
      cases p with
      | notifier n => exact absurd ⟨pid, n, hp⟩ hworker
      | _ => cases hpc
    rw [hnone]
    rfl

theorem infos_kept {msgs : List InternalCompletionMessage}
    (hreach : (poolMachine σ R cfg).Reachable ok s) (hevolves : s.shared.Evolves sh')
    (hmsgs : msgs = s.shared.notifier.sent) :
    msgs.map sh'.info = s.shared.notifier.sent.map s.shared.info := by
  subst hmsgs
  exact List.map_congr_left fun msg hmsg => info_kept hreach hevolves hmsg

/-- The steps of all others: a message is sent, a handler is registered, or nothing. -/
theorem Shared.Undelivered.broadcast {b : Signal} (hreach : (poolMachine σ R cfg).Reachable ok s)
    (hu : s.shared.Undelivered sh') (hp : ∀ n, p ≠ .notifier n)
    (hrun : Proc.run cfg b pid s.shared p = some (sh', p', sp)) :
    Broadcast.machine.StepOrStay s.broadcast (sh'.broadcast s.workerPc) := by
  have hevolves := Shared.Evolves.proc (Proc.step_of_run hrun)
  cases Proc.handlers_of_run hrun with
  | kept hhandlers =>
    cases Proc.queue_of_run hrun with
    | kept hsent =>
      refine .inl ?_
      rw [Pool.broadcast, Shared.broadcast, Shared.broadcast, hhandlers,
        infos_kept hreach hevolves hsent, hu.taken, hu.invocations]
    | @sent msg _ _ hsent =>
      have hsend : sh'.broadcast s.workerPc =
          { s.broadcast with sent := s.broadcast.sent ++ [sh'.info msg] } := by
        rw [Shared.broadcast, hhandlers, hsent, List.map_append, infos_kept hreach hevolves rfl,
          hu.taken, hu.invocations]
        rfl
      rw [hsend]
      exact (Broadcast.Turn.send _).step
  | @pushed c hp _ _ hreading hhandlers =>
    subst hp
    have hpending := pending_of_not_reading hreach hreading
    cases Proc.queue_of_run hrun with
    | kept hsent =>
      have hregister : sh'.broadcast s.workerPc =
          { s.broadcast with handlers := s.broadcast.handlers ++ [pid] } := by
        rw [Shared.broadcast, hhandlers, infos_kept hreach hevolves hsent, hu.taken, hu.invocations]
        rfl
      rw [hregister]
      exact (Broadcast.Turn.register pid hpending).step
    | sent hreports => cases hreports

/-- Every run of a pool is a run of the broadcast. -/
theorem pool_refines_broadcast (cfg : PoolConfig) :
    (poolMachine σ R cfg).Refines Broadcast.machine Pool.broadcast := by
  refine ⟨?_, fun {s a s'} hreach hstep => ?_⟩
  · have hidle : (poolMachine σ R cfg).init.workerPc = .recv := by
      refine Threads.first_eq fun pid p hp pc hpc => ?_
      rw [(Pool.init_loop hp).2] at hpc
      cases hpc
    rw [Pool.broadcast, hidle]
    rfl
  · cases a with
    | run b pid =>
      obtain ⟨p, sh, p', sp, hp, hrun, rfl⟩ := Program.step_run hstep
      by_cases hworker : ∃ n, p = .notifier n
      · obtain ⟨n, rfl⟩ := hworker
        cases Proc.callStep_of_run (p := .notifier n) True.intro hrun with
        | notifier hnext =>
          rw [Pool.broadcast, Pool.broadcast, Pool.workerPc_of_worker hreach hp,
            Pool.workerPc_of_worker (hreach.tail trivial hstep) (Threads.update_self hp)]
          exact hnext.broadcast ((listening hreach).agrees pid n hp).hand
      · obtain ⟨hu, hno⟩ := Proc.undelivered_of_run (fun n hn => hworker ⟨n, hn⟩) hrun
        have hnone {q : Proc R} (hq : ∀ n, q ≠ .notifier n) : q.workerPc = none := by
          cases q with
          | notifier n => exact absurd rfl (hq n)
          | _ => rfl
        have hself : p'.workerPc = p.workerPc := by
          rw [hnone hno, hnone fun n hn => hworker ⟨n, hn⟩]
        have hkept : Pool.workerPc (s.update pid sh p' sp) = s.workerPc := by
          refine Threads.first_update hp hself ?_
          rintro q rfl pc hpc
          exact Proc.workerPc_of_started hrun hpc
        rw [Pool.broadcast.eq_1 (s.update pid sh p' sp), hkept, Threads.update_shared]
        exact hu.broadcast hreach (fun n hn => hworker ⟨n, hn⟩) hrun
    | call c =>
      obtain ⟨sh, sp, hcall, rfl⟩ := Program.step_call hstep
      obtain ⟨hnotifier, -, hstarted⟩ := Call.notifier_of_enter hcall
      have hkept : Pool.workerPc (s.spawn sh sp) = s.workerPc := by
        refine Threads.first_spawn ?_
        rintro q rfl pc hpc
        cases q with
        | notifier n => cases hstarted
        | _ => cases hpc
      refine .inl ?_
      rw [Pool.broadcast, Pool.broadcast, hkept, Shared.broadcast, Threads.spawn_shared,
        infos_kept hreach (.quiet (Call.enter_quiet hcall).1) (congrArg (·.sent) hnotifier),
        hnotifier]
      rfl

end OfPool

/-! ## The notifier on its own -/

section OnItsOwn

variable {cfg : PoolConfig} {core : Nat → TaskCore} {body : Nat → List ManagerCall}
  {pid : Nat} {sh sh' : NotifierState} {sp : Option NotifierProc} {p p' : NotifierProc}

def WorkerPc.failed : WorkerPc → Bool
  | .unwound => true
  | _ => false

def NotifierProc.workerPc : NotifierProc → Option WorkerPc
  | .worker w => some w.pc
  | .caller _ => none

/-- Where the worker stands; one that was not started will begin with `recv`. -/
def NotifierSystem.workerPc (s : NotifierSystem) : WorkerPc :=
  s.first NotifierProc.workerPc .recv

/-- The broadcast that the notifier is. A message counts as taken once the worker has the
handlers for it. -/
def NotifierState.broadcast (core : Nat → TaskCore) (sh : NotifierState) (pc : WorkerPc) :
    Broadcast Nat TaskCompletionInfo where
  handlers := sh.handlers
  sent := sh.sent.map fun msg => msg.publicInfo (core msg.core)
  taken := sh.taken - pc.inHand.length
  pending := pc.pending
  calls := sh.invocations
  failed := pc.failed

/-- The view of the notifier as a broadcast. -/
def NotifierSystem.broadcast (core : Nat → TaskCore) (s : NotifierSystem) :
    Broadcast Nat TaskCompletionInfo :=
  s.shared.broadcast core s.workerPc

/-- A call registers a handler in one step, under the write guard of the list. -/
theorem CallPc.handlers_of_step {pc pc' : CallPc} (h : pc.step cfg pid sh = some (sh', pc', sp)) :
    sh'.handlers = sh.handlers ∨
      ∃ k, pc = .writeHeld k ∧ sh'.handlers = sh.handlers ++ [k] := by
  revert h
  fun_cases CallPc.step cfg pid sh pc
  all_goals intro h
  all_goals first
    | (obtain ⟨sh₁, hacquire, heq⟩ := Option.map_eq_some_iff.mp h
       obtain ⟨-, rfl⟩ := NotifierState.acquire_eq_some hacquire
       cases heq
       exact .inl rfl)
    | (cases h
       first
         | exact .inl rfl
         | exact .inr ⟨_, rfl, rfl⟩)
    | cases h

theorem NotifierCall.sent_of_enter {c : NotifierCall} {kind : PoolKind}
    (h : c.enter kind sh = some (sh', sp)) :
    sh'.sent = sh.sent ∨ ∃ msg, sh'.sent = sh.sent ++ [msg] := by
  revert h
  fun_cases NotifierCall.enter kind sh c
  all_goals rintro ⟨⟩
  all_goals first
    | exact .inl rfl
    | exact .inr ⟨_, rfl⟩

/-- The steps of a call are steps of the broadcast, as long as nobody owes calls while the
list is written. -/
theorem CallPc.broadcast {pc pc' : CallPc} {worker : WorkerPc}
    (h : pc.step cfg pid sh = some (sh', pc', sp))
    (hpending : ∀ k, pc = .writeHeld k → worker.pending = []) :
    Broadcast.machine.StepOrStay (sh.broadcast core worker) (sh'.broadcast core worker) := by
  have hbeside := CallPc.beside h
  rcases CallPc.handlers_of_step h with hkept | ⟨k, hpc, hpushed⟩
  · refine .inl ?_
    rw [NotifierState.broadcast, hkept, hbeside.sent, hbeside.taken, hbeside.invocations]
    rfl
  · have hregister : sh'.broadcast core worker =
        { sh.broadcast core worker with handlers := sh.handlers ++ [k] } := by
      rw [NotifierState.broadcast, hpushed, hbeside.sent, hbeside.taken, hbeside.invocations]
      rfl
    rw [hregister]
    exact (Broadcast.Turn.register k (hpending k hpc)).step

/-- The worker's steps are turns of the broadcast. It takes a message with its handlers when
it takes the read guard. -/
theorem WorkerStep.broadcast {w w' : WorkerLoop} (h : WorkerStep cfg core body pid sh w sh' w' sp)
    (hlock : ∀ msg, w.pc = .lock msg → 0 < sh.taken ∧ sh.sent[sh.taken - 1]? = some msg)
    (hcall : ∀ info rest k calls, w.pc ≠ .body info rest (.writeHeld k) calls) :
    Broadcast.machine.StepOrStay (sh.broadcast core w.pc) (sh'.broadcast core w'.pc) := by
  obtain ⟨signaled, pc⟩ := w
  cases h with
  | recv hpc | closed hpc | empty hpc | token hpc | delivered hpc | start hpc | finish hpc =>
    obtain rfl : pc = _ := hpc
    exact .inl rfl
  | @lock msg hpc hfree =>
    obtain rfl : pc = _ := hpc
    obtain ⟨hpos, hmsg⟩ := hlock msg rfl
    have htake : (sh.sent.map fun msg => msg.publicInfo (core msg.core))[sh.taken - 1]? =
        some (msg.publicInfo (core msg.core)) := by
      rw [List.getElem?_map, hmsg]
      rfl
    have hturn := Broadcast.Turn.take (s := sh.broadcast core (.lock msg)) rfl rfl htake
    have hcount : (sh.broadcast core (.lock msg)).taken + 1 = sh.taken := Nat.sub_add_cancel hpos
    rw [hcount] at hturn
    exact hturn.step
  | @invoke info k rest hpc =>
    obtain rfl : pc = _ := hpc
    exact (Broadcast.Turn.call (s := sh.broadcast core (.deliver info (k :: rest))) rfl).step
  | @call info rest call calls _ call' _ hpc hstep =>
    obtain rfl : pc = _ := hpc
    exact CallPc.broadcast hstep fun k hk => absurd (congrArg (WorkerPc.body info rest · calls) hk)
      (hcall info rest k calls)

variable {s : NotifierSystem} {ok : NotifierSystem → NotifierEvent → Prop}

/-- The write guard of the list excludes the worker's read guard. -/
theorem reader_excluded {qid : Nat} {q : NotifierProc}
    (hreach : (notifierMachine cfg core body).Reachable ok s) (hp : s.At pid p)
    (hwrite : (LockName.handlers, GuardMode.write) ∈ p.holds) (hq : s.At qid q) :
    (LockName.handlers, GuardMode.read) ∉ q.holds := by
  intro hread
  have hs := guarded hreach
  have hcompatible := hs.exclusive _ (hs.holding pid p _ hp hwrite) _ (hs.holding qid q _ hq hread)
    (by simp)
  simp [Guard.compatible] at hcompatible

theorem NotifierProc.pending_of_holds {pc : WorkerPc} (hpc : p.workerPc = some pc)
    (h : (LockName.handlers, GuardMode.read) ∉ p.holds) : pc.pending = [] := by
  cases p with
  | worker w =>
    obtain ⟨signaled, pc'⟩ := w
    obtain rfl : pc' = pc := Option.some.inj hpc
    cases pc' with
    | deliver | body => exact absurd List.mem_cons_self h
    | _ => rfl
  | caller => cases hpc

/-- Where the worker stands after a step of a caller. -/
theorem NotifierSystem.workerPc_update {pc pc' : CallPc} (hp : s.At pid (.caller pc))
    (hnew : ∀ q, sp = some q → q = .worker ⟨false, .recv⟩) :
    NotifierSystem.workerPc (s.update pid sh (.caller pc') sp) = s.workerPc := by
  refine Threads.first_update hp rfl ?_
  rintro q hq x hx
  rw [hnew q hq] at hx
  cases hx
  rfl

theorem NotifierSystem.workerPc_of_worker {w : WorkerLoop}
    (hreach : (notifierMachine cfg core body).Reachable ok s) (hw : s.At pid (.worker w)) :
    s.workerPc = w.pc := by
  refine Threads.first_of_sole hw rfl fun qid q hne hq => ?_
  cases q with
  | worker v => exact absurd (sole_worker hreach hq hw) hne
  | caller pc => rfl

/-- While a call writes the list, the worker owes nothing. -/
theorem NotifierSystem.pending_of_writing {k : Nat}
    (hreach : (notifierMachine cfg core body).Reachable ok s)
    (hp : s.At pid (.caller (.writeHeld k))) : s.workerPc.pending = [] := by
  by_cases hworker : ∃ qid w, s.At qid (.worker w)
  · obtain ⟨qid, w, hw⟩ := hworker
    rw [workerPc_of_worker hreach hw]
    exact NotifierProc.pending_of_holds (p := .worker w) rfl
      (reader_excluded hreach hp List.mem_cons_self hw)
  · have hnone : s.workerPc = .recv := by
      refine Threads.first_eq fun qid q hq x hx => ?_
      cases q with
      | worker w => exact absurd ⟨qid, w, hq⟩ hworker
      | caller => cases hx
    rw [hnone]
    rfl

/-- Every run of the notifier is a run of the broadcast. -/
theorem notifier_refines_broadcast (cfg : PoolConfig) (core : Nat → TaskCore)
    (body : Nat → List ManagerCall) :
    (notifierMachine cfg core body).Refines Broadcast.machine (NotifierSystem.broadcast core) := by
  refine ⟨rfl, fun {s a s'} hreach hstep => ?_⟩
  have hreach' := hreach.tail trivial hstep
  cases a with
  | run b pid =>
    obtain ⟨p, sh, p', sp, hp, hrun, rfl⟩ := Program.step_run hstep
    have hnext := NotifierProc.step_of_run hrun
    have hown (w w' : WorkerLoop) (hpw : p = .worker w) (hpw' : p' = .worker w') :
        NotifierSystem.broadcast core s = s.shared.broadcast core w.pc ∧
          NotifierSystem.broadcast core (s.update pid sh p' sp) = sh.broadcast core w'.pc := by
      subst hpw hpw'
      rw [NotifierSystem.broadcast, NotifierSystem.broadcast,
        NotifierSystem.workerPc_of_worker hreach hp,
        NotifierSystem.workerPc_of_worker hreach' (Threads.update_self hp)]
      exact ⟨rfl, rfl⟩
    cases hnext with
    | @worker w _ w' _ hstep =>
      obtain ⟨hbefore, hafter⟩ := hown w w' rfl rfl
      rw [hbefore, hafter]
      refine hstep.broadcast ((consumed hreach).agrees pid w hp).hand fun info rest k calls hpc => ?_
      -- in a body the worker has the read guard, so it is not writing
      obtain ⟨signaled, pc⟩ := w
      obtain rfl : pc = _ := hpc
      exact reader_excluded hreach hp (List.mem_cons_of_mem _ List.mem_cons_self) hp
        List.mem_cons_self
    | @panic w info rest calls hpc =>
      obtain ⟨hbefore, hafter⟩ := hown w _ rfl rfl
      rw [hbefore, hafter, hpc]
      exact .inl rfl
    | @unwind w info rest calls _ hpc =>
      obtain ⟨hbefore, hafter⟩ := hown w _ rfl rfl
      rw [hbefore, hafter, hpc]
      have hturn := (Broadcast.Turn.fail
        (s := s.shared.broadcast core (.body info rest .returned calls)) 0).step
      rw [List.take_zero, List.append_nil] at hturn
      exact hturn
    | @caller pc _ pc' _ hstep =>
      have hkept : NotifierSystem.workerPc (s.update pid sh (.caller pc') sp) = s.workerPc := by
        refine NotifierSystem.workerPc_update hp fun q hq => ?_
        subst hq
        exact (CallPc.started hstep).1
      rw [NotifierSystem.broadcast, NotifierSystem.broadcast, hkept, Threads.update_shared]
      refine CallPc.broadcast hstep fun k hpc => ?_
      subst hpc
      exact NotifierSystem.pending_of_writing hreach hp
  | call c =>
    obtain ⟨sh, sp, hcall, rfl⟩ := Program.step_call hstep
    obtain ⟨htaken, hinvocations, hhandlers, -⟩ := NotifierCall.enter_beside hcall
    obtain ⟨-, -, hstarted⟩ := NotifierCall.enter_idle hcall
    have hkept : NotifierSystem.workerPc (s.spawn sh sp) = s.workerPc := by
      refine Threads.first_spawn fun q hq x hx => ?_
      obtain ⟨pc, rfl, -⟩ := hstarted q hq
      cases hx
    rw [NotifierSystem.broadcast, NotifierSystem.broadcast, hkept, Threads.spawn_shared]
    rcases NotifierCall.sent_of_enter hcall with hsame | ⟨msg, hsent⟩
    · refine .inl ?_
      rw [NotifierState.broadcast, htaken, hinvocations, hhandlers, hsame]
      rfl
    · rw [NotifierState.broadcast.eq_1 core sh, htaken, hinvocations, hhandlers, hsent,
        List.map_append]
      exact (Broadcast.Turn.send (s := s.shared.broadcast core _) _).step

end OnItsOwn

/-! ## What both promise -/

/-- The two notifiers are one ordered broadcast. Every step of a pool of either kind, and every
step of the notifier next to any threads and with any handlers, is at most one turn of it: a
handler is registered while no calls are owed, a message is sent, the next message is taken with
the handlers there are, the first of the calls owed is made, or a panic ends the worker with
calls owed. -/
theorem notifiers_refine_broadcast {σ R : Type} [Semaphore σ] (cfg : PoolConfig)
    (core : Nat → TaskCore) (body : Nat → List ManagerCall) :
    (poolMachine σ R cfg).Refines Broadcast.machine Pool.broadcast ∧
      (notifierMachine cfg core body).Refines Broadcast.machine (NotifierSystem.broadcast core) :=
  ⟨pool_refines_broadcast cfg, notifier_refines_broadcast cfg core body⟩

/-- The handlers agree. In every run of either pool, and in every run of the notifier with
handlers that make calls and panic, as long as none of them is registered twice: until a panic
ends the worker, what a handler has been called with, and is about to be, is what was taken from
some message on, in order and without a gap, and a handler that came later has heard a tail of
what an earlier one has. After such a panic what a handler has heard is still one piece of what
was taken, and it hears nothing more. -/
theorem handlers_agree {σ R : Type} [Semaphore σ] (cfg : PoolConfig) (core : Nat → TaskCore)
    (body : Nat → List ManagerCall) :
    (∀ s : Pool σ R, (poolMachine σ R cfg).Reachable Machine.anyStep s →
      (s.broadcast.failed = false → s.broadcast.Agree) ∧ s.broadcast.Orderly) ∧
      ∀ s : NotifierSystem, (notifierMachine cfg core body).Reachable Machine.anyStep s →
        s.shared.handlers.Nodup →
        ((NotifierSystem.broadcast core s).failed = false →
          (NotifierSystem.broadcast core s).Agree) ∧
          (NotifierSystem.broadcast core s).Orderly := by
  refine ⟨fun s hreach => ?_, fun s hreach hnodup => ?_⟩
  · have hsound : s.broadcast.Sound :=
      (pool_refines_broadcast cfg).invariant (fun hs hstep => hs.turn hstep) .new hreach
    have hnodup := (handlers hreach).nodup
    exact ⟨hsound.agree hnodup, hsound.orderly hnodup⟩
  · have hsound : (NotifierSystem.broadcast core s).Sound :=
      (notifier_refines_broadcast cfg core body).invariant (fun hs hstep => hs.turn hstep) .new
        hreach
    exact ⟨hsound.agree hnodup, hsound.orderly hnodup⟩

theorem handlers_agree_late :
    (registeredLate.broadcast.handlers = [1, 5] ∧ registeredLate.broadcast.Agree) ∧
      (toldByHalf.broadcast.handlers = [1, 3] ∧ toldByHalf.broadcast.heard 3 = [] ∧
        toldByHalf.broadcast.Orderly) ∧
      productDelivered.1.shared.handlers = [7, 8] ∧
      (NotifierSystem.broadcast (fun t => .new (UInt64.ofNat t) ∅) productDelivered.1).Agree := by
  have hlate : (poolMachine FairSemaphore Nat (.manager 1 1 "pool")).Reachable Machine.anyStep
      registeredLate :=
    ((Machine.steps_after _ _ _ _).any.trans (Machine.steps_after _ _ _ _).any).trans
      (Machine.steps_after _ _ _ _).any
  have hhalf : (poolMachine FairSemaphore Nat (.manager 1 1 "pool")).Reachable Machine.anyStep
      toldByHalf :=
    ((Machine.steps_after _ _ _ _).any.trans (Machine.steps_after _ _ _ _).any).trans
      (Machine.steps_after _ _ _ _).any
  have hproduct : (notifierMachine (.manager 1 1 "pool") (fun t => .new (UInt64.ofNat t) ∅)
      fun _ => []).Reachable Machine.anyStep productDelivered.1 := by
    have hfirst : plainNotifier.Reachable (fun _ _ => True) handlerRegistered :=
      (Machine.steps_after _ _ _ _).any
    have hsecond : plainNotifier.Steps (fun _ _ => True) handlerRegistered productDelivered :=
      (Machine.steps_after _ _ _ _).any
    have hboth : plainNotifier.Steps (fun _ _ => True) plainNotifier.init productDelivered :=
      hfirst.trans hsecond
    exact (Machine.Steps.of_logged hboth : Machine.Steps _ Machine.anyStep _ _)
  obtain ⟨hpool, hown⟩ := handlers_agree (σ := FairSemaphore) (R := Nat) (.manager 1 1 "pool")
    (fun t => .new (UInt64.ofNat t) ∅) fun _ => []
  exact ⟨⟨by decide, (hpool registeredLate hlate).1 (by decide)⟩,
    ⟨by decide, by decide, (hpool toldByHalf hhalf).2⟩, by decide,
    (hown productDelivered.1 hproduct (by decide)).1 (by decide)⟩

end FuturesOrchestra
