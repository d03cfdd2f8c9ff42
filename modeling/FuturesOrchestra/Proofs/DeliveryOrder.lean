import FuturesOrchestra.Proofs.NotifierSteps

/-!
# The order of the handler calls

The calls of the worker so far, with those it still owes, are the product of the messages it has
taken with the handlers that were there when it took each. Panics that the worker outlives make
no difference, nor does the pool's token, and the worker ends when the channel is empty and
without senders. Two kinds of steps break this: a panic whose payload panics when it is dropped
ends the worker, and a handler that is added while the worker waits for the list with a message
in hand is called for that message.
-/

namespace FuturesOrchestra

open Interleaving

variable {cfg : PoolConfig} {core : Nat → TaskCore} {body : Nat → List ManagerCall}
  {pid : Nat} {sh sh' : NotifierState} {sp : Option NotifierProc}

/-- A message with the handlers that were in the list when the worker took it. -/
abbrev Taken := InternalCompletionMessage × List Nat

/-- The worker takes the next message. -/
def WorkerLoop.takes (sh : NotifierState) (w : WorkerLoop) : List Taken :=
  match w.pc with
  | .recv => (sh.sent[sh.taken]?).toList.map fun msg => (msg, sh.handlers)
  | _ => []

def NotifierProc.takes (sh : NotifierState) : NotifierProc → List Taken
  | .worker w => w.takes sh
  | .caller _ => []

/-- What a step adds to the history of the taken messages. -/
def taking (s : NotifierSystem) : NotifierEvent → List Taken
  | .run _ pid => ((s.procs[pid]?).map (·.takes s.shared)).getD []
  | .call _ => []

/-- One invocation for each handler that was there, in the order of the list, each with the info
of the message. -/
def invocationsOf (core : Nat → TaskCore) (log : List Taken) : List (Nat × TaskCompletionInfo) :=
  log.flatMap fun e => e.2.map fun h => (h, e.1.publicInfo (core e.1.core))

/-- The message that the worker has received and found no handlers for yet. -/
def WorkerPc.inHand : WorkerPc → List InternalCompletionMessage
  | .lock msg => [msg]
  | _ => []

/-- The invocations that the worker has found handlers for and still owes. -/
def WorkerPc.pending : WorkerPc → List (Nat × TaskCompletionInfo)
  | .deliver info rest | .body info rest _ _ => rest.map fun h => (h, info)
  | _ => []

/-- The invocations that the worker still owes, those for the message in its hand included. -/
def WorkerPc.owed (core : Nat → TaskCore) (handlers : List Nat) (pc : WorkerPc) :
    List (Nat × TaskCompletionInfo) :=
  pc.pending ++ invocationsOf core (pc.inHand.map fun msg => (msg, handlers))

/-! ## The two kinds of steps that break the product -/

/-- The worker has a message in hand and waits for the list of the handlers. -/
def NotifierProc.waitsForList : NotifierProc → Bool
  | .worker ⟨_, .lock _⟩ => true
  | _ => false

/-- The next step of the call adds a handler to the list. -/
def CallPc.pushing : CallPc → Bool
  | .writeHeld _ => true
  | _ => false

/-- No panic of a handler comes with a payload that panics when it is dropped, and no handler is
added between the moment the worker takes a message and the moment it reads the list. -/
def deliversInFull (s : NotifierSystem) : NotifierEvent → Bool
  | .run b pid => b != .panic true &&
      !(s.procs.any (·.waitsForList) && (s.procs[pid]?).any (·.call.pushing))
  | .call _ => true

theorem deliversInFull_run {s : NotifierSystem} {b : WorkerSignal} {p : NotifierProc}
    (hok : deliversInFull s (.run b pid) = true) (hp : s.At pid p) :
    b ≠ .panic true ∧ ∀ qid msg signaled, s.At qid (.worker ⟨signaled, .lock msg⟩) →
      p.call.pushing = false := by
  rw [deliversInFull, Bool.and_eq_true, bne_iff_ne, hp, Option.any_some, Bool.not_eq_true',
    Bool.and_eq_false_iff] at hok
  refine ⟨hok.1, fun qid msg signaled hq => hok.2.resolve_left fun hnone => ?_⟩
  cases List.any_eq_false.mp hnone _ (List.mem_of_getElem? hq) rfl

/-- Only the last step of a registration changes the list. -/
theorem CallPc.handlers_kept {pc pc' : CallPc} (h : pc.step cfg pid sh = some (sh', pc', sp))
    (hpc : pc.pushing = false) : sh'.handlers = sh.handlers := by
  revert h
  fun_cases CallPc.step cfg pid sh pc
  case case9 => cases hpc
  all_goals intro h
  all_goals first
    | (cases h
       rfl)
    | (obtain ⟨sh₁, hacquire, heq⟩ := Option.map_eq_some_iff.mp h
       obtain ⟨-, rfl⟩ := NotifierState.acquire_eq_some hacquire
       cases heq
       rfl)
    | cases h

/-! ## What the history says of the worker -/

structure WorkerLog (core : Nat → TaskCore) (sh : NotifierState) (w : WorkerLoop)
    (log : List Taken) : Prop where
  alive : w.pc ≠ .unwound
  received : log.map Prod.fst = sh.sent.take sh.taken
  invoked : sh.invocations ++ w.pc.owed core sh.handlers = invocationsOf core log

theorem WorkerLog.step {w w' : WorkerLoop} {log : List Taken} (hs : WorkerLog core sh w log)
    (h : WorkerStep cfg core body pid sh w sh' w' sp) :
    WorkerLog core sh' w' (log ++ w.takes sh) := by
  obtain ⟨signaled, pc⟩ := w
  obtain ⟨halive, hreceived, hinvoked⟩ := hs
  cases h with
  | @recv msg hpc hmsg =>
    obtain rfl : pc = _ := hpc
    have htakes : WorkerLoop.takes sh ⟨signaled, .recv⟩ = [(msg, sh.handlers)] := by
      rw [WorkerLoop.takes, hmsg]
      rfl
    rw [htakes]
    refine ⟨by rintro ⟨⟩, ?_, ?_⟩
    · show List.map Prod.fst (log ++ [(msg, sh.handlers)]) = sh.sent.take (sh.taken + 1)
      rw [List.map_append, List.take_add_one, hmsg, hreceived]
      rfl
    · show sh.invocations ++ ([] ++ invocationsOf core [(msg, sh.handlers)]) =
        invocationsOf core (log ++ [(msg, sh.handlers)])
      rw [List.nil_append, invocationsOf, invocationsOf, List.flatMap_append]
      exact congrArg (· ++ _) ((List.append_nil _).symm.trans hinvoked)
  | closed hpc hmsg | empty hpc hmsg =>
    obtain rfl : pc = _ := hpc
    have htakes : WorkerLoop.takes sh ⟨signaled, .recv⟩ = [] := by
      rw [WorkerLoop.takes, hmsg]
      rfl
    rw [htakes, List.append_nil]
    exact ⟨by rintro ⟨⟩, hreceived, hinvoked⟩
  | @lock msg hpc hfree =>
    obtain rfl : pc = _ := hpc
    show WorkerLog core _ _ (log ++ [])
    rw [List.append_nil]
    refine ⟨by rintro ⟨⟩, hreceived, ?_⟩
    show sh.invocations ++ (sh.handlers.map _ ++ []) = invocationsOf core log
    rw [← hinvoked]
    refine congrArg (sh.invocations ++ ·) ?_
    simp [WorkerPc.owed, WorkerPc.pending, WorkerPc.inHand, invocationsOf]
  | @invoke info h rest hpc =>
    obtain rfl : pc = _ := hpc
    show WorkerLog core _ _ (log ++ [])
    rw [List.append_nil]
    refine ⟨by rintro ⟨⟩, hreceived, ?_⟩
    show sh.invocations ++ [(h, info)] ++ (rest.map _ ++ []) = invocationsOf core log
    rw [List.append_assoc]
    exact hinvoked
  | token hpc | start hpc | finish hpc | delivered hpc =>
    obtain rfl : pc = _ := hpc
    show WorkerLog core _ _ (log ++ [])
    rw [List.append_nil]
    exact ⟨by rintro ⟨⟩, hreceived, hinvoked⟩
  | call hpc hcall =>
    obtain rfl : pc = _ := hpc
    have hbeside := CallPc.beside hcall
    show WorkerLog core _ _ (log ++ [])
    rw [List.append_nil]
    refine ⟨by rintro ⟨⟩, ?_, ?_⟩
    · rw [hbeside.sent, hbeside.taken]
      exact hreceived
    · rw [hbeside.invocations]
      exact hinvoked

theorem WorkerLog.panic {w : WorkerLoop} {log : List Taken} {info : TaskCompletionInfo}
    {rest : List Nat} {calls : List ManagerCall} (hs : WorkerLog core sh w log)
    (hpc : w.pc = .body info rest .returned calls) :
    WorkerLog core sh (w.goto (.deliver info rest)) (log ++ w.takes sh) := by
  obtain ⟨signaled, pc⟩ := w
  obtain rfl : pc = _ := hpc
  show WorkerLog core _ _ (log ++ [])
  rw [List.append_nil]
  exact ⟨by rintro ⟨⟩, hs.received, hs.invoked⟩

/-- Other threads change nothing that the history speaks of, unless they add a handler while the
worker has a message in hand. -/
theorem WorkerLog.beside {w : WorkerLoop} {log : List Taken} (hs : WorkerLog core sh w log)
    (h : sh.Beside sh') (hlist : w.pc.inHand = [] ∨ sh'.handlers = sh.handlers) :
    WorkerLog core sh' w log := by
  refine ⟨hs.alive, ?_, ?_⟩
  · rw [h.sent, h.taken]
    exact hs.received
  · have howed : w.pc.owed core sh'.handlers = w.pc.owed core sh.handlers := by
      rcases hlist with hnone | heq
      · rw [WorkerPc.owed, WorkerPc.owed, hnone]
        rfl
      · rw [heq]
    rw [h.invocations, howed]
    exact hs.invoked

theorem WorkerStep.taken_le {w w' : WorkerLoop} (h : WorkerStep cfg core body pid sh w sh' w' sp)
    (htaken : sh.taken ≤ sh.sent.length) : sh'.taken ≤ sh'.sent.length := by
  cases h with
  | recv hpc hmsg => exact (List.getElem?_eq_some_iff.mp hmsg).1
  | call hpc hcall =>
    have hbeside := CallPc.beside hcall
    rw [hbeside.sent, hbeside.taken]
    exact htaken
  | _ => exact htaken

/-- The outside touches nothing that the worker has taken or done, and it sends nothing once
there are no senders. -/
theorem NotifierCall.enter_beside {c : NotifierCall} {kind : PoolKind}
    (h : c.enter kind sh = some (sh', sp)) :
    sh'.taken = sh.taken ∧ sh'.invocations = sh.invocations ∧ sh'.handlers = sh.handlers ∧
      (∃ more, sh'.sent = sh.sent ++ more) ∧
      (sh.senders = 0 → sh'.senders = 0 ∧ sh'.sent = sh.sent) := by
  revert h
  fun_cases NotifierCall.enter kind sh c
  case case10 hsenders _ =>
    rintro ⟨⟩
    exact ⟨rfl, rfl, rfl, ⟨_, rfl⟩, fun hzero => absurd hzero hsenders⟩
  case case5 hsenders | case7 hsenders =>
    rintro ⟨⟩
    exact ⟨rfl, rfl, rfl, ⟨[], (List.append_nil _).symm⟩, fun hzero => absurd hzero hsenders⟩
  all_goals rintro ⟨⟩
  all_goals exact ⟨rfl, rfl, rfl, ⟨[], (List.append_nil _).symm⟩, fun hzero => ⟨hzero, rfl⟩⟩

/-- A step of a thread next to a worker is no initialiser's. -/
theorem starting_beside_worker {s : NotifierSystem} {ok : NotifierSystem → NotifierEvent → Prop}
    {pc : CallPc} {qid : Nat} {loop : WorkerLoop}
    (hreach : (notifierMachine cfg core body).Reachable ok s) (hp : s.At pid (.caller pc))
    (hq : s.At qid (.worker loop)) : pc.starting = 0 := by
  have hne : pid ≠ qid := by
    rintro rfl
    cases hp.symm.trans hq
  have hboth := Threads.add_le_tally (g := NotifierProc.workers) hne hp hq
  have hle := workers_le hreach
  simp only [NotifierProc.workers] at hboth
  show (NotifierProc.caller pc).call.starting = 0
  omega

/-- The worker itself is never in the initialiser. -/
theorem WorkerStep.starts_nothing {s : NotifierSystem} {w w' : WorkerLoop}
    {ok : NotifierSystem → NotifierEvent → Prop}
    (hreach : (notifierMachine cfg core body).Reachable ok s) (hp : s.At pid (.worker w))
    (h : WorkerStep cfg core body pid s.shared w sh' w' sp) : sp = none := by
  have hle := Threads.le_tally (g := NotifierProc.workers) hp
  have hworkers := workers_le hreach
  cases h with
  | @call info rest call calls _ call' _ hpc hcall =>
    obtain ⟨signaled, pc⟩ := w
    obtain rfl : pc = _ := hpc
    refine (CallPc.senders_kept hcall ?_).2
    change 1 + call.starting ≤ _ at hle
    omega
  | _ => rfl

section Runs

variable {s s' : NotifierSystem} {ok : NotifierSystem → NotifierEvent → Prop}
  {log : List Taken} {p p' : NotifierProc}

/-- The worker has ended only if the channel has no sender and no message left, and what it has
in hand is the message it has received last. -/
structure WorkerLoop.Agrees (sh : NotifierState) (w : WorkerLoop) : Prop where
  ended : w.pc = .ended → sh.senders = 0 ∧ sh.taken = sh.sent.length
  hand : ∀ msg, w.pc = .lock msg → 0 < sh.taken ∧ sh.sent[sh.taken - 1]? = some msg

theorem WorkerLoop.Agrees.of_other {w : WorkerLoop} (hended : w.pc ≠ .ended)
    (hlock : ∀ msg, w.pc ≠ .lock msg) : w.Agrees sh :=
  ⟨fun h => absurd h hended, fun msg h => absurd h (hlock msg)⟩

theorem WorkerStep.agrees {w w' : WorkerLoop} (h : WorkerStep cfg core body pid sh w sh' w' sp)
    (hle : sh.taken ≤ sh.sent.length) : w'.Agrees sh' := by
  cases h with
  | @recv msg _ hmsg =>
    refine ⟨by rintro ⟨⟩, ?_⟩
    rintro msg' ⟨⟩
    exact ⟨Nat.succ_pos _, hmsg⟩
  | closed _ hmsg hsenders =>
    exact ⟨fun _ => ⟨hsenders, hle.antisymm (List.getElem?_eq_none_iff.mp hmsg)⟩,
      by rintro msg ⟨⟩⟩
  | _ => exact .of_other (by rintro ⟨⟩) (by rintro msg ⟨⟩)

/-- The worker has taken no more than was sent. -/
structure Consumed (s : NotifierSystem) : Prop where
  taken : s.shared.taken ≤ s.shared.sent.length
  agrees : ∀ w loop, s.At w (.worker loop) → loop.Agrees s.shared

theorem Consumed.update {b : WorkerSignal} (hreach : (notifierMachine cfg core body).Reachable ok s)
    (hs : Consumed s) (hp : s.At pid p)
    (hstep : NotifierProc.Step cfg core body b pid s.shared p sh p' sp) :
    Consumed (s.update pid sh p' sp) := by
  cases hstep with
  | @worker w _ w' _ hstep =>
    refine ⟨hstep.taken_le hs.taken, fun qid loop hq => ?_⟩
    obtain rfl := hstep.starts_nothing hreach hp
    rcases Threads.update_getElem? hp hq with ⟨rfl, heq⟩ | ⟨hne, hold⟩ | ⟨-, heq⟩
    · cases heq
      exact hstep.agrees hs.taken
    · exact absurd (sole_worker hreach hold hp) hne
    · cases heq
  | panic hpc' | unwind _ hpc' =>
    refine ⟨hs.taken, fun qid loop hq => ?_⟩
    rcases Threads.update_getElem? hp hq with ⟨rfl, heq⟩ | ⟨hne, hold⟩ | ⟨-, heq⟩
    · cases heq
      exact .of_other (by rintro ⟨⟩) (by rintro msg ⟨⟩)
    · exact absurd (sole_worker hreach hold hp) hne
    · cases heq
  | @caller pc _ pc' _ hstep =>
    have hbeside := CallPc.beside hstep
    refine ⟨?_, fun qid loop hq => ?_⟩
    · rw [Threads.update_shared, hbeside.sent, hbeside.taken]
      exact hs.taken
    · rcases Threads.update_getElem? hp hq with ⟨rfl, heq⟩ | ⟨hne, hold⟩ | ⟨-, rfl⟩
      · cases heq
      · obtain ⟨hsenders, -⟩ := CallPc.senders_kept hstep (starting_beside_worker hreach hp hold)
        obtain ⟨hended, hhand⟩ := hs.agrees qid loop hold
        constructor
        all_goals rw [Threads.update_shared, hbeside.sent, hbeside.taken]
        · rwa [hsenders]
        · exact hhand
      · obtain ⟨heq, -⟩ := CallPc.started hstep
        cases heq
        exact .of_other (by rintro ⟨⟩) (by rintro msg ⟨⟩)

theorem Consumed.spawn {c : NotifierCall} (hs : Consumed s)
    (hcall : c.enter cfg.kind s.shared = some (sh, sp)) : Consumed (s.spawn sh sp) := by
  obtain ⟨htaken, -, -, ⟨more, hsent⟩, hclosed⟩ := NotifierCall.enter_beside hcall
  obtain ⟨-, -, hnew⟩ := NotifierCall.enter_idle hcall
  refine ⟨?_, fun qid loop hq => ?_⟩
  · rw [Threads.spawn_shared, htaken, hsent, List.length_append]
    exact Nat.le_add_right_of_le hs.taken
  · rcases Threads.spawn_getElem? hq with hold | ⟨-, rfl⟩
    · obtain ⟨hended, hhand⟩ := hs.agrees qid loop hold
      rw [Threads.spawn_shared]
      refine ⟨fun hpc => ?_, fun msg hpc => ?_⟩
      · obtain ⟨hzero, hall⟩ := hended hpc
        obtain ⟨hzero', hsent'⟩ := hclosed hzero
        rw [hsent', htaken]
        exact ⟨hzero', hall⟩
      · obtain ⟨hpos, hmsg⟩ := hhand msg hpc
        have hlt := (List.getElem?_eq_some_iff.mp hmsg).1
        rw [htaken, hsent, List.getElem?_append_left hlt]
        exact ⟨hpos, hmsg⟩
    · obtain ⟨pc, heq, -⟩ := hnew _ rfl
      cases heq

theorem consumed (h : (notifierMachine cfg core body).Reachable ok s) : Consumed s := by
  have hboth : (notifierMachine cfg core body).Reachable Machine.anyStep s ∧ Consumed s := by
    refine h.invariant (I := fun u => (notifierMachine cfg core body).Reachable Machine.anyStep u ∧
      Consumed u) ?_ ⟨.refl, Nat.le_refl 0, by rintro w loop ⟨⟩⟩
    rintro u a v ⟨hreach, hs⟩ - hnext
    refine ⟨hreach.tail trivial hnext, ?_⟩
    cases a with
    | run b pid =>
      obtain ⟨p, sh, p', sp, hp, hrun, rfl⟩ := Program.step_run hnext
      exact hs.update hreach hp (NotifierProc.step_of_run hrun)
    | call c =>
      obtain ⟨sh, sp, hcall, rfl⟩ := Program.step_call hnext
      exact hs.spawn hcall
  exact hboth.2

/-- What the history of a run says of its end. -/
structure Delivering (core : Nat → TaskCore) (s : NotifierSystem) (log : List Taken) : Prop where
  idle : (∀ w loop, ¬s.At w (.worker loop)) →
    log = [] ∧ s.shared.taken = 0 ∧ s.shared.invocations = []
  worker : ∀ w loop, s.At w (.worker loop) → WorkerLog core s.shared loop log

theorem Delivering.update {b : WorkerSignal}
    (hreach : (notifierMachine cfg core body).Reachable ok s) (hs : Delivering core s log)
    (hok : deliversInFull s (.run b pid) = true) (hp : s.At pid p)
    (hstep : NotifierProc.Step cfg core body b pid s.shared p sh p' sp) :
    Delivering core (s.update pid sh p' sp) (log ++ p.takes s.shared) := by
  obtain ⟨hharmless, hpush⟩ := deliversInFull_run hok hp
  cases hstep with
  | @worker w _ w' _ hstep =>
    refine ⟨fun hnone => absurd (Threads.update_self hp) (hnone _ _), fun qid loop hq => ?_⟩
    obtain rfl := hstep.starts_nothing hreach hp
    rcases Threads.update_getElem? hp hq with ⟨rfl, heq⟩ | ⟨hne, hold⟩ | ⟨-, heq⟩
    · cases heq
      exact (hs.worker qid w hp).step hstep
    · exact absurd (sole_worker hreach hold hp) hne
    · cases heq
  | @panic w info rest calls hpc =>
    refine ⟨fun hnone => absurd (Threads.update_self hp) (hnone _ _), fun qid loop hq => ?_⟩
    rcases Threads.update_getElem? hp hq with ⟨rfl, heq⟩ | ⟨hne, hold⟩ | ⟨-, heq⟩
    · cases heq
      exact (hs.worker qid w hp).panic hpc
    · exact absurd (sole_worker hreach hold hp) hne
    · cases heq
  | unwind hb => exact absurd hb hharmless
  | @caller pc _ pc' _ hstep =>
    have hbeside := CallPc.beside hstep
    rw [show log ++ (NotifierProc.caller pc).takes s.shared = log from List.append_nil log]
    refine ⟨fun hnone => ?_, fun qid loop hq => ?_⟩
    · rw [Threads.update_shared, hbeside.taken, hbeside.invocations]
      refine hs.idle fun qid loop hq => hnone qid loop (Threads.update_other ?_ hq)
      rintro rfl
      cases hp.symm.trans hq
    · rcases Threads.update_getElem? hp hq with ⟨rfl, heq⟩ | ⟨hne, hold⟩ | ⟨-, rfl⟩
      · cases heq
      · refine (hs.worker qid loop hold).beside hbeside ?_
        obtain ⟨signaled, wpc⟩ := loop
        cases wpc with
        | lock msg => exact .inr (CallPc.handlers_kept hstep (hpush qid msg signaled hold))
        | _ => exact .inl rfl
      · obtain ⟨heq, h, rfl⟩ := CallPc.started hstep
        cases heq
        obtain ⟨rfl, htaken, hinvocations⟩ := hs.idle fun rid loop hr =>
          Nat.one_ne_zero (starting_beside_worker hreach hp hr)
        rw [Threads.update_shared]
        refine ⟨by rintro ⟨⟩, ?_, ?_⟩
        · rw [hbeside.taken, htaken, List.take_zero]
          rfl
        · rw [hbeside.invocations, hinvocations]
          rfl

theorem Delivering.spawn {c : NotifierCall} (htaken : s.shared.taken ≤ s.shared.sent.length)
    (hs : Delivering core s log) (hcall : c.enter cfg.kind s.shared = some (sh, sp)) :
    Delivering core (s.spawn sh sp) log := by
  obtain ⟨htaken', hinvocations, hhandlers, ⟨more, hsent⟩, -⟩ := NotifierCall.enter_beside hcall
  obtain ⟨-, -, hnew⟩ := NotifierCall.enter_idle hcall
  refine ⟨fun hnone => ?_, fun qid loop hq => ?_⟩
  · rw [Threads.spawn_shared, htaken', hinvocations]
    exact hs.idle fun qid loop hq => hnone qid loop (Threads.spawn_other hq)
  · rcases Threads.spawn_getElem? hq with hold | ⟨-, rfl⟩
    · obtain ⟨halive, hreceived, hinvoked⟩ := hs.worker qid loop hold
      rw [Threads.spawn_shared]
      refine ⟨halive, ?_, ?_⟩
      · rw [htaken', hsent, List.take_append_of_le_length htaken]
        exact hreceived
      · rw [hinvocations, hhandlers]
        exact hinvoked
    · obtain ⟨pc, heq, -⟩ := hnew _ rfl
      cases heq

theorem delivering (h : ((notifierMachine cfg core body).logged taking).Reachable
    (fun x a => deliversInFull x.1 a = true) (s, log)) :
    (notifierMachine cfg core body).Reachable Machine.anyStep s ∧ Delivering core s log := by
  refine h.invariant (I := fun x => (notifierMachine cfg core body).Reachable Machine.anyStep x.1 ∧
    Delivering core x.1 x.2) ?_ ⟨.refl, fun _ => ⟨rfl, rfl, rfl⟩, ?_⟩
  · rintro ⟨u, log⟩ a ⟨v, log'⟩ ⟨hreach, hs⟩ hok hnext
    obtain ⟨hstep, rfl⟩ := Machine.logged_step hnext
    refine ⟨hreach.tail trivial hstep, ?_⟩
    cases a with
    | run b pid =>
      obtain ⟨p, sh, p', sp, hp, hrun, rfl⟩ := Program.step_run hstep
      have htaking : taking u (.run b pid) = p.takes u.shared := by
        rw [taking, hp]
        rfl
      rw [htaking]
      exact hs.update hreach hok hp (NotifierProc.step_of_run hrun)
    | call c =>
      obtain ⟨sh, sp, hcall, rfl⟩ := Program.step_call hstep
      rw [show log ++ taking u (.call c) = log from List.append_nil log]
      exact hs.spawn (consumed hreach).taken hcall
  · intro w loop hw
    cases hw

/-- The list of the handlers only grows, at its end. -/
theorem handlers_grow (h : (notifierMachine cfg core body).Steps Machine.anyStep s s') :
    s.shared.handlers <+: s'.shared.handlers := by
  refine Program.induct (I := fun u => s.shared.handlers <+: u.shared.handlers) ?_ ?_ h
    (List.prefix_refl _)
  · intro u b pid p sh p' sp hu _ hp hrun
    have hgrows : ∃ more, sh.handlers = u.shared.handlers ++ more := by
      cases NotifierProc.step_of_run hrun with
      | worker hstep =>
        cases hstep with
        | call _ hcall => exact (CallPc.beside hcall).handlers
        | _ => exact ⟨[], (List.append_nil _).symm⟩
      | panic | unwind => exact ⟨[], (List.append_nil _).symm⟩
      | caller hstep => exact (CallPc.beside hstep).handlers
    obtain ⟨more, hmore⟩ := hgrows
    rw [Threads.update_shared, hmore]
    exact hu.trans (List.prefix_append _ _)
  · intro u c sh sp hu _ hcall
    obtain ⟨-, -, hhandlers, -⟩ := NotifierCall.enter_beside hcall
    rw [Threads.spawn_shared, hhandlers]
    exact hu

end Runs

/-- The notification worker delivers the full product in order. In every run, with handlers that
make any calls and panic between any two of them, while other threads register handlers, send
messages and cancel the token, as long as no panic payload panics when it is dropped and no
handler is added while the worker waits for the list with a message in hand: the messages that
the worker has taken are those that were sent, in order; its invocations, with those it still
owes, are one for each message and each handler that was there when it took the message, in the
order of registration and with the info of the message; and it has ended only if the channel has
no sender and no message left. The list of the handlers grows at its end, in every run. -/
theorem deliveries_are_product (cfg : PoolConfig) (core : Nat → TaskCore)
    (body : Nat → List ManagerCall) :
    (∀ (s : NotifierSystem) (log : List Taken) (pid : Nat) (w : WorkerLoop),
      ((notifierMachine cfg core body).logged taking).Reachable
        (fun x a => deliversInFull x.1 a = true) (s, log) → s.At pid (.worker w) →
      w.pc ≠ .unwound ∧ log.map Prod.fst = s.shared.sent.take s.shared.taken ∧
        s.shared.invocations ++ w.pc.owed core s.shared.handlers = invocationsOf core log ∧
        (w.pc = .ended → s.shared.senders = 0 ∧ log.map Prod.fst = s.shared.sent ∧
          s.shared.invocations = invocationsOf core log)) ∧
    ∀ s s' : NotifierSystem, (notifierMachine cfg core body).Steps Machine.anyStep s s' →
      s.shared.handlers <+: s'.shared.handlers := by
  refine ⟨fun s log pid w hreach hw => ?_, fun s s' hsteps => handlers_grow hsteps⟩
  obtain ⟨hany, hdelivering⟩ := delivering hreach
  obtain ⟨halive, hreceived, hinvoked⟩ := hdelivering.worker pid w hw
  refine ⟨halive, hreceived, hinvoked, fun hpc => ?_⟩
  obtain ⟨hsenders, hall⟩ := ((consumed hany).agrees pid w hw).ended hpc
  rw [hall, List.take_length] at hreceived
  rw [hpc] at hinvoked
  exact ⟨hsenders, hreceived, (List.append_nil _).symm.trans hinvoked⟩

/-- The notifier of a pool, with handlers that make no calls. -/
def plainNotifier : Machine (NotifierSystem × List Taken) NotifierEvent :=
  (notifierMachine (.manager 1 1 "pool") (fun t => .new (UInt64.ofNat t) ∅) fun _ => []).logged
    taking

/-- A handler is registered. -/
def handlerRegistered : NotifierSystem × List Taken :=
  plainNotifier.after (fun x => deliversInFull x.1)
    (.call (.manager (.addCompletionHandler 7)) :: List.replicate 8 (.run .step 0))
    plainNotifier.init

/-- Then a second one, two messages are sent, the pool's token is cancelled and the channel is
closed; the first handler panics on the first message. -/
def productDelivered : NotifierSystem × List Taken :=
  plainNotifier.after (fun x => deliversInFull x.1)
    (.call (.manager (.addCompletionHandler 8)) :: List.replicate 5 (.run .step 2) ++
      [.call (.send ⟨"pool", 0, .success⟩), .call (.send ⟨"pool", 1, .cancelled⟩),
        .call .cancelToken, .call .dropSender] ++
      List.replicate 3 (.run .step 1) ++
      .run (.panic false) 1 :: List.replicate 11 (.run .step 1))
    handlerRegistered

theorem deliveries_are_product_panic :
    productDelivered.2.map Prod.snd = [[7, 8], [7, 8]] ∧
      productDelivered.2.map Prod.fst = productDelivered.1.shared.sent ∧
      productDelivered.1.shared.invocations =
        invocationsOf (fun t => .new (UInt64.ofNat t) ∅) productDelivered.2 ∧
      handlerRegistered.1.shared.handlers <+: productDelivered.1.shared.handlers := by
  have hfirst : plainNotifier.Reachable (fun x a => deliversInFull x.1 a = true)
      handlerRegistered := Machine.steps_after _ _ _ _
  have hsecond : plainNotifier.Steps (fun x a => deliversInFull x.1 a = true) handlerRegistered
      productDelivered := Machine.steps_after _ _ _ _
  obtain ⟨hproduct, hgrow⟩ := deliveries_are_product (.manager 1 1 "pool")
    (fun t => .new (UInt64.ofNat t) ∅) fun _ => []
  obtain ⟨-, -, -, hended⟩ :=
    hproduct productDelivered.1 productDelivered.2 1 ⟨false, .ended⟩ (hfirst.trans hsecond) rfl
  obtain ⟨-, hsent, hinvocations⟩ := hended rfl
  have hsteps : (notifierMachine (.manager 1 1 "pool") (fun t => .new (UInt64.ofNat t) ∅)
      fun _ => []).Steps Machine.anyStep handlerRegistered.1 productDelivered.1 :=
    (Machine.Steps.of_logged hsecond.any : Machine.Steps _ Machine.anyStep _ _)
  exact ⟨rfl, hsent, hinvocations, hgrow _ _ hsteps⟩

/-- Two handlers, two messages; the payload of the panic of the first handler panics when it is
dropped. -/
def payloadDropped : NotifierSystem × List Taken :=
  plainNotifier.after (fun _ _ => true)
    (.call (.manager (.addCompletionHandler 8)) :: List.replicate 5 (.run .step 2) ++
      [.call (.send ⟨"pool", 0, .success⟩), .call (.send ⟨"pool", 1, .success⟩)] ++
      List.replicate 3 (.run .step 1) ++ [.run (.panic true) 1])
    handlerRegistered

/-- The worker takes a message, and a second handler is added before it reads the list. -/
def addedBehindMessage : NotifierSystem × List Taken :=
  plainNotifier.after (fun _ _ => true)
    ([.call (.send ⟨"pool", 0, .success⟩), .run .step 1,
      .call (.manager (.addCompletionHandler 8))] ++ List.replicate 5 (.run .step 2) ++
      List.replicate 5 (.run .step 1))
    handlerRegistered

/-- In the first run the worker is over while the channel has a sender and a message, and the
second handler was never called for the message that was taken; in the second run the second
handler was called for a message that was taken before it was there. -/
theorem payload_or_late_handler_breaks_product :
    (plainNotifier.Reachable (fun _ _ => True) payloadDropped ∧
      payloadDropped.1.At 1 (.worker ⟨false, .unwound⟩) ∧ payloadDropped.1.shared.senders = 1 ∧
      payloadDropped.1.shared.taken < payloadDropped.1.shared.sent.length ∧
      payloadDropped.2.map Prod.snd = [[7, 8]] ∧
      payloadDropped.1.shared.invocations.map Prod.fst = [7]) ∧
    (plainNotifier.Reachable (fun _ _ => True) addedBehindMessage ∧
      addedBehindMessage.2.map Prod.snd = [[7]] ∧
      addedBehindMessage.1.shared.invocations.map Prod.fst = [7, 8]) := by
  have hfirst : plainNotifier.Reachable (fun _ _ => True) handlerRegistered :=
    (Machine.steps_after _ _ _ _).any
  refine ⟨⟨hfirst.trans (Machine.steps_after _ _ _ _).any, rfl, rfl, by decide, rfl, rfl⟩,
    hfirst.trans (Machine.steps_after _ _ _ _).any, rfl, rfl⟩

end FuturesOrchestra
