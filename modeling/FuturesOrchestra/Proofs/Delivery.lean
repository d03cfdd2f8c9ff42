import FuturesOrchestra.Proofs.Messages

/-!
# Delivery

What the notification worker hands to the handlers. `Listening` ties the worker's
program point to the notifier: unless a panic ends it, the worker ends only when every
message was taken and no sender is left. `Logged` says what a handler has been called
with: the messages for which the handler list was read since it was registered, in
order, each once.
-/

namespace FuturesOrchestra

open Interleaving

variable {σ R : Type} {cfg : PoolConfig} {pid t h k : Nat} {sh sh' : Shared σ R}
  {sp : Option (Proc R)} {p p' : Proc R}

/-! ## The worker and the notifier -/

/-- A step leaves alone what only the worker changes, finds a new sender only in an open
sink, and stores a handle of the worker only when it starts it. -/
structure Shared.Undelivered (sh sh' : Shared σ R) : Prop where
  taken : sh'.notifier.taken = sh.notifier.taken
  reading : sh'.notifier.reading = sh.notifier.reading
  workerDone : sh'.notifier.workerDone = sh.notifier.workerDone
  invocations : sh'.notifier.invocations = sh.notifier.invocations
  live : sh.notifier.sink ≠ .unset → sh'.notifier.live ≤ sh.notifier.live + sh.notifier.pooled
  workerHandle : sh'.notifier.workerHandle = true →
    sh.notifier.workerHandle = true ∨ sh'.notifier.sink ≠ .unset

namespace Shared.Undelivered

theorem of_eq (h : sh'.notifier = sh.notifier) : sh.Undelivered sh' := by
  constructor <;> simp [h]
  exact Or.inl

theorem lookup : sh.Undelivered sh.lookedUp := by
  have hlive : sh.lookedUp.notifier.live ≤ sh.notifier.live + sh.notifier.pooled := by
    rw [Shared.lookedUp_notifier, CompletionNotifier.live_lookup, CompletionNotifier.pooled]
    cases hfound : sh.notifier.lookup.2 with
    | false => simp
    | true => simp [(CompletionNotifier.lookup_found _).mp hfound]
  have heq : sh.lookedUp.notifier = _ := CompletionNotifier.lookup_eq sh.notifier
  exact ⟨by rw [heq], by rw [heq], by rw [heq], by rw [heq], fun _ => hlive,
    fun h => .inl (by rwa [heq] at h)⟩

theorem close (hclose : sh'.notifier = sh.notifier.close) : sh.Undelivered sh' := by
  unfold CompletionNotifier.close at hclose
  cases hs : sh.notifier.sink <;> rw [hs] at hclose
  · exact of_eq hclose
  · constructor <;> simp [hclose, CompletionNotifier.live, hs]
    omega
  · exact of_eq hclose

theorem send {msg : InternalCompletionMessage} (hsend : sh'.notifier = sh.notifier.send msg) :
    sh.Undelivered sh' := by
  have hlive : sh'.notifier.live ≤ sh.notifier.live + sh.notifier.pooled := by
    rw [hsend, CompletionNotifier.live_send]
    omega
  unfold CompletionNotifier.send at hsend
  split at hsend <;>
    exact ⟨by rw [hsend], by rw [hsend], by rw [hsend], by rw [hsend], fun _ => hlive,
      fun h => .inl (by rwa [hsend] at h)⟩

theorem hangUp (sender : Bool) (hnotifier : sh'.notifier = (sh.hangUp sender).notifier) :
    sh.Undelivered sh' := by
  cases sender with
  | false => exact of_eq hnotifier
  | true =>
    have hdrop : sh'.notifier = sh.notifier.dropSender := hnotifier
    have hlive : sh'.notifier.live ≤ sh.notifier.live + sh.notifier.pooled := by
      rw [hdrop, CompletionNotifier.live_dropSender]
      omega
    exact ⟨by rw [hdrop]; rfl, by rw [hdrop]; rfl, by rw [hdrop]; rfl, by rw [hdrop]; rfl,
      fun _ => hlive, fun h => .inl (by rwa [hdrop] at h)⟩

theorem drop {closed closed' : Bool} {pc pc' : DropPc} (h : DropStep sh closed pc sh' closed' pc') :
    sh.Undelivered sh' := by
  cases h with
  | closeSink | releaseLast => exact close rfl
  | _ => exact of_eq rfl

end Shared.Undelivered

variable [Semaphore σ]

/-- Only the worker takes messages and calls handlers. -/
theorem Proc.undelivered_of_run {b : Signal} (hp : ∀ n, p ≠ .notifier n)
    (hrun : Proc.run cfg b pid sh p = some (sh', p', sp)) :
    sh.Undelivered sh' ∧ ∀ n, p' ≠ .notifier n := by
  rcases Proc.split_of_run hrun with ⟨c, c', rfl, rfl, hstep⟩ | ⟨d, d', rfl, rfl, hstep⟩ |
    ⟨w, w', rfl, rfl, hstep, -⟩ | hstep
  · refine ⟨?_, nofun⟩
    cases hstep with
    | lookup => exact .lookup
    | _ => exact .of_eq rfl
  · refine ⟨?_, nofun⟩
    cases hstep with
    | lookup | cancelLookup | cancelUnheard => exact .lookup
    | cancelNotify => exact .send rfl
    | exitLast => exact .close rfl
    | _ => exact .of_eq rfl
  · refine ⟨?_, nofun⟩
    cases hstep with
    | notify => exact .send rfl
    | unwind | unwindSent => exact .hangUp w.sender rfl
    | _ => exact .of_eq rfl
  · cases hstep with
    | shutdown hstep =>
      refine ⟨?_, nofun⟩
      cases hstep with
      | closeSink => exact .close rfl
      | dropSelf _ hdrop => exact .drop hdrop
      | takeNotifier => exact ⟨rfl, rfl, rfl, rfl, fun _ => Nat.le_add_right _ _, fun h => nomatch h⟩
      | _ => exact .of_eq rfl
    | drop _ hdrop => exact ⟨.drop hdrop, nofun⟩
    | labelCancel hstep =>
      refine ⟨?_, nofun⟩
      cases hstep <;> exact .of_eq rfl
    | addHandler hstep =>
      refine ⟨?_, nofun⟩
      cases hstep with
      | init _ hsink =>
        exact ⟨rfl, rfl, rfl, rfl, fun hset => absurd hsink hset, fun _ => .inr nofun⟩
      | initialized => exact .of_eq rfl
      | push => exact ⟨rfl, rfl, rfl, rfl, fun _ => Nat.le_add_right _ _, .inl⟩
    | @notifier n => exact absurd rfl (hp n)

def NotifierPc.over : NotifierPc → Bool
  | .ended | .unwound => true
  | _ => false

def NotifierPc.delivering : NotifierPc → Bool
  | .deliver .. => true
  | _ => false

/-- The worker's program point next to the notifier. -/
structure NotifierLoop.Agrees (worker : NotifierLoop) (n : CompletionNotifier) : Prop where
  done : n.workerDone = worker.pc.over
  reading : n.reading = worker.pc.delivering
  hand : ∀ msg, worker.pc = .lock msg → 0 < n.taken ∧ n.sent[n.taken - 1]? = some msg

/-- Every message was taken, and there is nobody left to send one. -/
def CompletionNotifier.Drained (n : CompletionNotifier) : Prop :=
  n.live = 0 ∧ n.taken = n.sent.length

/-- The worker next to the notifier. It has not taken more than was sent, and has taken it
all when it has ended. -/
structure Listening (s : Pool σ R) : Prop where
  idle : s.shared.notifier.sink = .unset →
    s.shared.notifier.workerDone = false ∧ s.shared.notifier.reading = false
  agrees : ∀ pid worker, s.At pid (.notifier worker) → worker.Agrees s.shared.notifier
  taken_le : s.shared.notifier.taken ≤ s.shared.notifier.sent.length
  drained : ∀ pid worker, s.At pid (.notifier worker) → worker.pc = .ended →
    s.shared.notifier.Drained

omit [Semaphore σ] in
/-- The worker's own steps. -/
theorem NotifierStep.listens {b : Signal} {n n' : NotifierLoop} (h : NotifierStep b sh n sh' n')
    (hagrees : n.Agrees sh.notifier) (hle : sh.notifier.taken ≤ sh.notifier.sent.length) :
    n'.Agrees sh'.notifier ∧ sh'.notifier.taken ≤ sh'.notifier.sent.length ∧
      (n'.pc = .ended → sh'.notifier.Drained) := by
  obtain ⟨hdone, hreading, -⟩ := hagrees
  cases h with
  | @recv msg hpc hmsg =>
    rw [hpc] at hdone hreading
    refine ⟨⟨hdone, hreading, ?_⟩, (List.getElem?_eq_some_iff.mp hmsg).1, by rintro ⟨⟩⟩
    rintro msg' ⟨⟩
    exact ⟨Nat.succ_pos _, hmsg⟩
  | closed hpc hmsg hsenders =>
    rw [hpc] at hreading
    have hlen : sh.notifier.sent.length ≤ sh.notifier.taken := List.getElem?_eq_none_iff.mp hmsg
    refine ⟨⟨rfl, hreading, by rintro msg' ⟨⟩⟩, hle, fun _ => ⟨?_, le_antisymm hle hlen⟩⟩
    simp [CompletionNotifier.live, hsenders]
  | skip hpc | empty hpc | token hpc | invoke hpc =>
    rw [hpc] at hdone hreading
    exact ⟨⟨hdone, hreading, by rintro msg' ⟨⟩⟩, hle, by rintro ⟨⟩⟩
  | lock hpc | delivered hpc =>
    rw [hpc] at hdone
    exact ⟨⟨hdone, rfl, by rintro msg' ⟨⟩⟩, hle, by rintro ⟨⟩⟩
  | unwind => exact ⟨⟨rfl, rfl, by rintro msg' ⟨⟩⟩, hle, by rintro ⟨⟩⟩

omit [Semaphore σ] in
theorem QueueStep.grows (hqueue : QueueStep cfg sh sh' p) :
    ∃ more, sh'.notifier.sent = sh.notifier.sent ++ more := by
  cases hqueue with
  | kept hsent => exact ⟨[], by rw [hsent, List.append_nil]⟩
  | @sent msg _ _ hsent => exact ⟨[msg], hsent⟩

omit [Semaphore σ] in
/-- The steps of all others, next to the worker. -/
theorem Shared.Undelivered.agrees {worker : NotifierLoop} (hu : sh.Undelivered sh')
    (hqueue : QueueStep cfg sh sh' p) (hagrees : worker.Agrees sh.notifier) :
    worker.Agrees sh'.notifier := by
  refine ⟨hu.workerDone.trans hagrees.done, hu.reading.trans hagrees.reading, fun msg hpc => ?_⟩
  obtain ⟨hpos, hmsg⟩ := hagrees.hand msg hpc
  obtain ⟨more, hmore⟩ := hqueue.grows
  have hlt := (List.getElem?_eq_some_iff.mp hmsg).1
  rw [hu.taken, hmore, List.getElem?_append_left hlt]
  exact ⟨hpos, hmsg⟩

omit [Semaphore σ] in
/-- The steps of all others, after the end of the worker. -/
theorem Shared.Undelivered.drained (hu : sh.Undelivered sh') (hqueue : QueueStep cfg sh sh' p)
    (hset : sh.notifier.sink ≠ .unset) (hpooled : sh.notifier.pooled ≤ sh.notifier.live)
    (hdone : sh.notifier.workerDone = true) (hdrained : sh.notifier.Drained) :
    sh'.notifier.Drained := by
  obtain ⟨hlive, htaken⟩ := hdrained
  have hle := hu.live hset
  refine ⟨by omega, ?_⟩
  cases hqueue with
  | kept hsent => rw [hu.taken, hsent, htaken]
  | sent _ hopen =>
    rw [hopen] at hdone
    cases hdone

/-- A step of a process that is no worker starts one only next to an unset sink. -/
theorem Proc.started_worker {b : Signal} {n : NotifierLoop}
    (hrun : Proc.run cfg b pid sh p = some (sh', p', some (.notifier n))) :
    n = ⟨false, .recv⟩ ∧ sh.notifier.sink = .unset := by
  cases Proc.sink_of_run hrun with
  | opened _ _ hunset _ hsp =>
    cases hsp
    exact ⟨rfl, hunset⟩
  | kept _ hsp | closed _ _ _ hsp | dropped _ _ _ _ hsp => cases hsp

theorem listening {ok : Pool σ R → PoolEvent R → Prop} {s : Pool σ R}
    (h : (poolMachine σ R cfg).Reachable ok s) : Listening s := by
  refine Pool.invariant (I := Listening) .refl ?_ ?_ h ?_
  · intro s b pid p sh p' sp hreach hs _ hp hrun
    have hsink := (Proc.sink_of_run hrun).advances
    by_cases hworker : ∃ n, p = .notifier n
    · obtain ⟨n, rfl⟩ := hworker
      have hset := worker_sink hreach hp
      cases Proc.callStep_of_run (p := .notifier n) True.intro hrun with
      | @notifier _ _ n' hstep =>
        obtain ⟨hagrees, hle, hdrained⟩ := hstep.listens (hs.agrees pid n hp) hs.taken_le
        have hself : ∀ qid m, (s.update pid sh (.notifier n') none).At qid (.notifier m) →
            m = n' := by
          intro qid m hq
          rcases Threads.update_getElem? hp hq with ⟨-, heq⟩ | ⟨hne, hold⟩ | ⟨_, hnew⟩
          · exact (Proc.notifier.inj heq)
          · exact absurd (worker_unique hreach hold hp) hne
          · cases hnew
        refine ⟨fun hunset => absurd hunset (hsink.set hset), fun qid m hq => ?_, hle,
          fun qid m hq hpc => ?_⟩
        · rw [hself qid m hq]
          exact hagrees
        · rw [hself qid m hq] at hpc
          exact hdrained hpc
    · obtain ⟨hu, hno⟩ := Proc.undelivered_of_run (fun n hn => hworker ⟨n, hn⟩) hrun
      have hqueue := Proc.queue_of_run hrun
      obtain ⟨more, hmore⟩ := hqueue.grows
      refine ⟨fun hunset => ?_, fun qid m hq => ?_, ?_, fun qid m hq hpc => ?_⟩
      · rw [Threads.update_shared, hu.workerDone, hu.reading]
        exact hs.idle (by_contra fun hset => hsink.set hset hunset)
      · rcases Threads.update_getElem? hp hq with ⟨-, heq⟩ | ⟨_, hold⟩ | ⟨_, hnew⟩
        · exact absurd heq.symm (hno m)
        · exact hu.agrees hqueue (hs.agrees qid m hold)
        · obtain ⟨rfl, hunset⟩ := Proc.started_worker (hnew ▸ hrun)
          obtain ⟨hdone, hreading⟩ := hs.idle hunset
          exact ⟨hu.workerDone.trans hdone, hu.reading.trans hreading, by rintro msg ⟨⟩⟩
      · rw [Threads.update_shared, hu.taken, hmore, List.length_append]
        exact Nat.le_add_right_of_le hs.taken_le
      · rcases Threads.update_getElem? hp hq with ⟨-, heq⟩ | ⟨_, hold⟩ | ⟨_, hnew⟩
        · exact absurd heq.symm (hno m)
        · have hcounted := senders_counted hreach
          have hdone := (hs.agrees qid m hold).done
          rw [hpc] at hdone
          exact hu.drained hqueue (worker_sink hreach hold) (by omega) hdone
            (hs.drained qid m hold hpc)
        · obtain ⟨rfl, -⟩ := Proc.started_worker (hnew ▸ hrun)
          cases hpc
  · intro s c sh sp _ hs _ hcall
    obtain ⟨hnotifier, -, hstarted⟩ := Call.notifier_of_enter hcall
    have hworkers : ∀ qid m, (s.spawn sh sp).At qid (.notifier m) → s.At qid (.notifier m) := by
      intro qid m hq
      rcases Threads.spawn_getElem? hq with hold | ⟨_, hnew⟩
      · exact hold
      · rw [hnew] at hstarted
        cases hstarted
    constructor
    all_goals rw [Threads.spawn_shared, hnotifier]
    · exact hs.idle
    · exact fun qid m hq => hs.agrees qid m (hworkers qid m hq)
    · exact hs.taken_le
    · exact fun qid m hq => hs.drained qid m (hworkers qid m hq)
  · refine ⟨fun _ => ⟨rfl, rfl⟩, fun pid n hn => ?_, le_rfl, fun pid n hn => ?_⟩
    · cases (Pool.init_loop hn).2
    · cases (Pool.init_loop hn).2

/-! ## A worker that no panic ends -/

/-- The step is no panic of a handler whose payload panics when it is dropped. -/
def sparesWorker (_ : Pool σ R) : PoolEvent R → Bool
  | .run (.panic true) _ => false
  | _ => true

/-- No panic has ended the worker. -/
def WorkerWell (s : Pool σ R) : Prop :=
  ∀ pid n, s.At pid (.notifier n) → n.pc ≠ .unwound

omit [Semaphore σ] in
theorem NotifierStep.alive {b : Signal} {n n' : NotifierLoop} (hb : b ≠ .panic true)
    (h : NotifierStep b sh n sh' n') : n'.pc ≠ .unwound := by
  cases h with
  | unwind hb' => exact absurd hb' hb
  | _ => rintro ⟨⟩

section Worker

variable {ok : Pool σ R → PoolEvent R → Prop} {s s' : Pool σ R}

theorem WorkerWell.update {b : Signal} (hs : WorkerWell s)
    (hok : sparesWorker s (.run b pid) = true) (hp : s.At pid p)
    (hrun : Proc.run cfg b pid s.shared p = some (sh', p', sp)) :
    WorkerWell (s.update pid sh' p' sp) := by
  intro qid n hq
  rcases Threads.update_getElem? hp hq with ⟨rfl, rfl⟩ | ⟨_, hold⟩ | ⟨_, rfl⟩
  · obtain ⟨n₀, rfl, hstep, -⟩ := Proc.notifier_of_run hrun
    refine hstep.alive ?_
    rintro rfl
    cases hok
  · exact hs qid n hold
  · obtain ⟨rfl, -⟩ := Proc.started_worker hrun
    rintro ⟨⟩

omit [Semaphore σ] in
theorem WorkerWell.spawn {c : Call R} (hs : WorkerWell s)
    (hcall : c.enter s.shared = some (sh', sp)) : WorkerWell (s.spawn sh' sp) := by
  intro qid n hq
  rcases Threads.spawn_getElem? hq with hold | ⟨_, rfl⟩
  · exact hs qid n hold
  · cases (Call.notifier_of_enter hcall).2.2

theorem WorkerWell.steps (hs : WorkerWell s)
    (h : (poolMachine σ R cfg).Steps (fun s e => sparesWorker s e = true) s s') :
    WorkerWell s' := by
  refine Program.induct (I := WorkerWell) ?_ ?_ h hs
  · intro s b pid p sh p' sp hs hok hp hrun
    exact hs.update hok hp hrun
  · intro s c sh sp hs _ hcall
    exact hs.spawn hcall

theorem worker_well
    (h : (poolMachine σ R cfg).Reachable (fun s e => sparesWorker s e = true) s) :
    WorkerWell s := by
  refine WorkerWell.steps (fun pid n hn => ?_) h
  cases (Pool.init_loop hn).2

/-- The worker that is done has ended by itself. -/
theorem worker_ended (h : (poolMachine σ R cfg).Reachable ok s) (hwell : WorkerWell s)
    (hdone : s.shared.notifier.workerDone = true) :
    ∃ pid n, s.At pid (.notifier n) ∧ n.pc = .ended := by
  have hlistening := listening h
  have hset : s.shared.notifier.sink ≠ .unset := by
    intro hunset
    rw [(hlistening.idle hunset).1] at hdone
    cases hdone
  obtain ⟨pid, n, hn⟩ := worker_present h hset
  have hover := (hlistening.agrees pid n hn).done
  rw [hdone] at hover
  refine ⟨pid, n, hn, ?_⟩
  cases hpc : n.pc with
  | ended => rfl
  | unwound => exact absurd hpc (hwell pid n hn)
  | _ =>
    rw [hpc] at hover
    cases hover

/-- When the worker has ended nobody holds a completion sender, the sink neither. -/
theorem silent_of_done (h : (poolMachine σ R cfg).Reachable ok s) (hwell : WorkerWell s)
    (hdone : s.shared.notifier.workerDone = true) :
    s.shared.notifier.sink = .closed ∧ ∀ pid p, s.At pid p → p.senders = 0 := by
  have hcounted := senders_counted h
  obtain ⟨pid, n, hn, hpc⟩ := worker_ended h hwell hdone
  have hlive := ((listening h).drained pid n hn hpc).1
  refine ⟨?_, fun pid p hp => ?_⟩
  · cases hsink : s.shared.notifier.sink with
    | unset => exact absurd hsink (worker_sink h hn)
    | opened =>
      simp only [CompletionNotifier.pooled, hsink, if_true] at hcounted
      omega
    | closed => rfl
  · have hle := Threads.le_tally (g := Proc.senders) hp
    omega

/-- A worker that has ended, by itself or by a panic, does not come back. -/
theorem Proc.done_of_run {b : Signal} (hrun : Proc.run cfg b pid sh p = some (sh', p', sp))
    (hdone : sh.notifier.workerDone = true) : sh'.notifier.workerDone = true := by
  by_cases hworker : ∃ n, p = .notifier n
  · obtain ⟨n, rfl⟩ := hworker
    cases Proc.callStep_of_run (p := .notifier n) True.intro hrun with
    | notifier hstep => cases hstep <;> first | exact hdone | rfl
  · obtain ⟨hu, -⟩ := Proc.undelivered_of_run (fun n hn => hworker ⟨n, hn⟩) hrun
    exact hu.workerDone.trans hdone

/-- Nothing is sent to a worker that has ended. -/
theorem Pool.sent_of_done (hdone : s.shared.notifier.workerDone = true)
    (h : (poolMachine σ R cfg).Steps ok s s') :
    s'.shared.notifier.sent = s.shared.notifier.sent := by
  refine (Program.induct (I := fun s' => s'.shared.notifier.workerDone = true ∧
    s'.shared.notifier.sent = s.shared.notifier.sent) ?_ ?_ h ⟨hdone, rfl⟩).2
  · rintro s' b pid p sh p' sp ⟨hdone, hsent⟩ _ _ hrun
    refine ⟨Proc.done_of_run hrun hdone, ?_⟩
    cases Proc.queue_of_run hrun with
    | kept hkept => exact hkept.trans hsent
    | sent _ hopen =>
      rw [hdone] at hopen
      cases hopen
  · rintro s' c sh sp hs _ hcall
    rwa [Threads.spawn_shared, (Call.notifier_of_enter hcall).1]

/-- A step that does not spare the worker ends it. -/
theorem done_of_panic {e : PoolEvent R} (hpanics : sparesWorker s e = false)
    (hstep : (poolMachine σ R cfg).step s e = some s') :
    s'.shared.notifier.workerDone = true ∧
      s'.shared.notifier.sent = s.shared.notifier.sent := by
  unfold sparesWorker at hpanics
  split at hpanics
  · obtain ⟨p, sh, p', sp, -, hrun, rfl⟩ := Program.step_run hstep
    rw [Threads.update_shared]
    cases p with
    | notifier n =>
      obtain ⟨n', hpanicked, -⟩ := Next.toProc_eq_some hrun
      unfold NotifierLoop.panicked at hpanicked
      split at hpanicked
      · cases hpanicked
        exact ⟨rfl, rfl⟩
      · cases hpanicked
    | _ => cases hrun
  · cases hpanics

end Worker

/-! ## Registered handlers -/

/-- The handlers that the worker has yet to call for the message in hand. -/
def NotifierPc.rest : NotifierPc → List Nat
  | .deliver _ rest => rest
  | _ => []

/-- The handler list: a handler is there from the moment its registration returns,
once, and nobody else is ever called. -/
structure Handlers (s : Pool σ R) : Prop where
  nodup : s.shared.notifier.handlers.Nodup
  returned : ∀ pid c, s.At pid (.addHandler c) →
    (pid ∈ s.shared.notifier.handlers ↔ c.pc = .returned)
  calls : ∀ h ∈ s.shared.notifier.handlers, ∃ c, s.At h (.addHandler c)
  rest : ∀ pid worker, s.At pid (.notifier worker) →
    worker.pc.rest.Nodup ∧ ∀ h ∈ worker.pc.rest, h ∈ s.shared.notifier.handlers
  invoked : ∀ x ∈ s.shared.notifier.invocations, x.1 ∈ s.shared.notifier.handlers

/-- What a step does to the handler list: nothing, or a registration ends. -/
inductive HandlersStep (pid : Nat) (sh sh' : Shared σ R) (p p' : Proc R) : Prop
  | kept (hhandlers : sh'.notifier.handlers = sh.notifier.handlers)
      (hno : ∀ c, p = .addHandler c → c.pc ≠ .push)
  | pushed {c} (hp : p = .addHandler c) (hpc : c.pc = .push)
      (hp' : p' = .addHandler { c with pc := .returned }) (hreading : sh.notifier.reading = false)
      (hhandlers : sh'.notifier.handlers = sh.notifier.handlers ++ [pid])

namespace HandlersStep

omit [Semaphore σ] in
theorem lookup (hno : ∀ c, p ≠ .addHandler c) : HandlersStep pid sh sh.lookedUp p p' := by
  refine .kept ?_ fun c hc => absurd hc (hno c)
  rw [Shared.lookedUp_notifier, CompletionNotifier.lookup_eq]

omit [Semaphore σ] in
theorem close (hno : ∀ c, p ≠ .addHandler c) (hclose : sh'.notifier = sh.notifier.close) :
    HandlersStep pid sh sh' p p' := by
  refine .kept ?_ fun c hc => absurd hc (hno c)
  rw [hclose, CompletionNotifier.close]
  split <;> rfl

omit [Semaphore σ] in
theorem send {msg : InternalCompletionMessage} (hno : ∀ c, p ≠ .addHandler c)
    (hsend : sh'.notifier = sh.notifier.send msg) : HandlersStep pid sh sh' p p' := by
  refine .kept ?_ fun c hc => absurd hc (hno c)
  rw [hsend, CompletionNotifier.send]
  split <;> rfl

omit [Semaphore σ] in
theorem drop {closed closed' : Bool} {pc pc' : DropPc} (hno : ∀ c, p ≠ .addHandler c)
    (h : DropStep sh closed pc sh' closed' pc') : HandlersStep pid sh sh' p p' := by
  cases h with
  | closeSink | releaseLast => exact close hno rfl
  | _ => exact .kept rfl fun c hc => absurd hc (hno c)

end HandlersStep

theorem Proc.handlers_of_run {b : Signal} (hrun : Proc.run cfg b pid sh p = some (sh', p', sp)) :
    HandlersStep pid sh sh' p p' := by
  rcases Proc.split_of_run hrun with ⟨c, c', rfl, rfl, hstep⟩ | ⟨d, d', rfl, rfl, hstep⟩ |
    ⟨w, w', rfl, rfl, hstep, -⟩ | hstep
  · cases hstep with
    | lookup => exact .lookup nofun
    | _ => exact .kept rfl nofun
  · cases hstep with
    | lookup | cancelLookup | cancelUnheard => exact .lookup nofun
    | cancelNotify => exact .send nofun rfl
    | exitLast => exact .close nofun rfl
    | _ => exact .kept rfl nofun
  · cases hstep with
    | notify => exact .send nofun rfl
    | unwind | unwindSent =>
      refine .kept ?_ nofun
      rw [Shared.hangUp_notifier]
      split <;> rfl
    | _ => exact .kept rfl nofun
  · cases hstep with
    | shutdown hstep =>
      cases hstep with
      | closeSink => exact .close nofun rfl
      | dropSelf _ hdrop => exact .drop nofun hdrop
      | _ => exact .kept rfl nofun
    | drop _ hdrop => exact .drop nofun hdrop
    | labelCancel hstep => cases hstep <;> exact .kept rfl nofun
    | addHandler hstep =>
      cases hstep with
      | init hpc | initialized hpc =>
        refine .kept rfl fun c hc => ?_
        cases hc
        simp [hpc]
      | push hpc hreading => exact .pushed rfl hpc rfl hreading rfl
    | notifier hstep => cases hstep <;> exact .kept rfl nofun

/-- A registration past its first step has set the cell of the sink. -/
theorem sink_of_registering {ok : Pool σ R → PoolEvent R → Prop} {s : Pool σ R}
    {c : AddHandlerCall} (hreach : (poolMachine σ R cfg).Reachable ok s)
    (hc : s.At pid (.addHandler c)) (hpc : c.pc ≠ .init) : s.shared.notifier.sink ≠ .unset := by
  refine Pool.invariant (I := fun s => ∀ pid c, s.At pid (.addHandler c) → c.pc ≠ .init →
    s.shared.notifier.sink ≠ .unset) .refl ?_ ?_ hreach ?_ pid c hc hpc
  · intro s b pid p sh p' sp _ hs _ hp hrun qid c hq hpc
    have hsink := (Proc.sink_of_run hrun).advances
    rcases Threads.update_getElem? hp hq with ⟨rfl, rfl⟩ | ⟨_, hold⟩ | ⟨_, hnew⟩
    · obtain ⟨c₀, rfl, hstep⟩ := Proc.addHandler_of_run hrun
      cases hstep with
      | init => nofun
      | initialized _ hset => exact hset
      | push hpc₀ => exact hs qid c₀ hp (by simp [hpc₀])
    · exact hsink.set (hs qid c hold hpc)
    · rcases Proc.started_of_run (hnew ▸ hrun) with ⟨w, heq⟩ | heq <;> cases heq
  · intro s call sh sp _ hs _ hcall qid c hq hpc
    rw [Threads.spawn_shared, (Call.notifier_of_enter hcall).1]
    rcases Threads.spawn_getElem? hq with hold | ⟨_, hnew⟩
    · exact hs qid c hold hpc
    · subst hnew
      exact absurd (Call.enter_addHandler hcall) hpc
  · intro pid c hc
    cases (Pool.init_loop hc).2

omit [Semaphore σ] in
/-- What the worker has in hand comes from the handler list. -/
theorem NotifierStep.rest {b : Signal} {n n' : NotifierLoop} (h : NotifierStep b sh n sh' n')
    (hnodup : sh.notifier.handlers.Nodup)
    (hn : n.pc.rest.Nodup ∧ ∀ h ∈ n.pc.rest, h ∈ sh.notifier.handlers) :
    n'.pc.rest.Nodup ∧ ∀ h ∈ n'.pc.rest, h ∈ sh.notifier.handlers := by
  cases h with
  | lock => exact ⟨hnodup, fun _ hh => hh⟩
  | @invoke info handler rest hpc =>
    rw [hpc] at hn
    exact ⟨(List.nodup_cons.mp hn.1).2, fun h hh => hn.2 h (List.mem_cons_of_mem _ hh)⟩
  | _ => exact ⟨List.nodup_nil, nofun⟩

section Update

variable {ok : Pool σ R → PoolEvent R → Prop} {s : Pool σ R} {b : Signal}
  (hs : Handlers s) (hp : s.At pid p) (hrun : Proc.run cfg b pid s.shared p = some (sh, p', sp))

include hrun

/-- A handler is registered by the call it belongs to. -/
theorem Proc.mem_handlers_of_run (h : Nat) :
    h ∈ sh.notifier.handlers ↔ h ∈ s.shared.notifier.handlers ∨
      (h = pid ∧ ∃ c, p = .addHandler c ∧ c.pc = .push) := by
  cases Proc.handlers_of_run hrun with
  | kept hhandlers hno =>
    rw [hhandlers]
    refine ⟨.inl, fun hh => hh.resolve_right ?_⟩
    rintro ⟨-, c, hc, hpc⟩
    exact hno c hc hpc
  | @pushed c hp' hpc _ _ hhandlers =>
    rw [hhandlers, List.mem_append, List.mem_singleton]
    exact or_congr_right ⟨fun heq => ⟨heq, c, hp', hpc⟩, fun hpush => hpush.1⟩

include hs hp

theorem Handlers.nodup_update : sh.notifier.handlers.Nodup := by
  cases Proc.handlers_of_run hrun with
  | kept hhandlers => exact hhandlers ▸ hs.nodup
  | @pushed c hp' hpc _ _ hhandlers =>
    subst hp'
    have hnew : pid ∉ s.shared.notifier.handlers := by
      rw [hs.returned pid c hp, hpc]
      nofun
    rw [hhandlers]
    simpa using List.Nodup.concat hnew hs.nodup

theorem Handlers.returned_update {qid : Nat} {c : AddHandlerCall}
    (hq : (s.update pid sh p' sp).At qid (.addHandler c)) :
    qid ∈ sh.notifier.handlers ↔ c.pc = .returned := by
  rw [Proc.mem_handlers_of_run hrun]
  rcases Threads.update_getElem? hp hq with ⟨rfl, rfl⟩ | ⟨hne, hold⟩ | ⟨_, hnew⟩
  · obtain ⟨c₀, rfl, hadd⟩ := Proc.addHandler_of_run hrun
    have hbefore := hs.returned qid c₀ hp
    cases hadd with
    | init hpc | initialized hpc =>
      rw [hbefore, hpc]
      simp [hpc]
    | push hpc => simp [hpc]
  · rw [hs.returned qid c hold]
    simp [hne]
  · rcases Proc.started_of_run (hnew ▸ hrun) with ⟨w, heq⟩ | heq <;> cases heq

theorem Handlers.calls_update {h : Nat} (hh : h ∈ sh.notifier.handlers) :
    ∃ c, (s.update pid sh p' sp).At h (.addHandler c) := by
  have hcall : ∃ c, s.At h (.addHandler c) := by
    rcases (Proc.mem_handlers_of_run hrun h).mp hh with hold | ⟨rfl, c, rfl, -⟩
    · exact hs.calls h hold
    · exact ⟨c, hp⟩
  obtain ⟨c, hc⟩ := hcall
  by_cases hpid : h = pid
  · subst hpid
    obtain rfl := Option.some.inj (hp.symm.trans hc)
    cases Proc.callStep_of_run (p := .addHandler c) True.intro hrun with
    | addHandler => exact ⟨_, Threads.update_self hp⟩
  · exact ⟨c, Threads.update_other hpid hc⟩

theorem Handlers.rest_update {qid : Nat} {worker : NotifierLoop}
    (hq : (s.update pid sh p' sp).At qid (.notifier worker)) :
    worker.pc.rest.Nodup ∧ ∀ h ∈ worker.pc.rest, h ∈ sh.notifier.handlers := by
  have hkept (rest : List Nat) (hrest : ∀ h ∈ rest, h ∈ s.shared.notifier.handlers) :
      ∀ h ∈ rest, h ∈ sh.notifier.handlers := fun h hh =>
    (Proc.mem_handlers_of_run hrun h).mpr (.inl (hrest h hh))
  rcases Threads.update_getElem? hp hq with ⟨rfl, rfl⟩ | ⟨_, hold⟩ | ⟨_, hnew⟩
  · obtain ⟨n, rfl, hworker, -⟩ := Proc.notifier_of_run hrun
    have hrest := hworker.rest hs.nodup (hs.rest qid n hp)
    exact ⟨hrest.1, hkept _ hrest.2⟩
  · exact ⟨(hs.rest qid worker hold).1, hkept _ (hs.rest qid worker hold).2⟩
  · rcases Proc.started_of_run (hnew ▸ hrun) with ⟨w, heq⟩ | heq
    · cases heq
    · cases heq
      exact ⟨List.nodup_nil, nofun⟩

theorem Handlers.invoked_update {x : Nat × TaskCompletionInfo}
    (hx : x ∈ sh.notifier.invocations) : x.1 ∈ sh.notifier.handlers := by
  refine (Proc.mem_handlers_of_run hrun x.1).mpr (.inl ?_)
  by_cases hworker : ∃ n, p = .notifier n
  · obtain ⟨n, rfl⟩ := hworker
    cases Proc.callStep_of_run (p := .notifier n) True.intro hrun with
    | notifier hworker =>
      cases hworker with
      | @invoke info handler rest hpc | @unwind info handler rest hb hpc =>
        rcases List.mem_append.mp hx with hold | hnew
        · exact hs.invoked x hold
        · obtain rfl := List.mem_singleton.mp hnew
          exact (hs.rest pid n hp).2 handler (by rw [hpc]; exact List.mem_cons_self)
      | _ => exact hs.invoked x hx
  · rw [(Proc.undelivered_of_run (fun n hn => hworker ⟨n, hn⟩) hrun).1.invocations] at hx
    exact hs.invoked x hx

end Update

theorem handlers {ok : Pool σ R → PoolEvent R → Prop} {s : Pool σ R}
    (h : (poolMachine σ R cfg).Reachable ok s) : Handlers s := by
  refine Pool.invariant (I := Handlers) .refl ?_ ?_ h ?_
  · intro s b pid p sh p' sp _ hs _ hp hrun
    exact ⟨hs.nodup_update hp hrun, fun _ _ hq => hs.returned_update hp hrun hq,
      fun _ hh => hs.calls_update hp hrun hh, fun _ _ hq => hs.rest_update hp hrun hq,
      fun _ hx => hs.invoked_update hp hrun hx⟩
  · intro s c sh sp _ hs _ hcall
    obtain ⟨hnotifier, -, hstarted⟩ := Call.notifier_of_enter hcall
    constructor
    all_goals rw [Threads.spawn_shared, hnotifier]
    · exact hs.nodup
    · intro qid c hq
      rcases Threads.spawn_getElem? hq with hold | ⟨hqid, hnew⟩
      · exact hs.returned qid c hold
      · subst hnew
        rw [Call.enter_addHandler hcall]
        refine ⟨fun hmem => ?_, nofun⟩
        obtain ⟨c₀, hc₀⟩ := hs.calls qid hmem
        have hlt := (List.getElem?_eq_some_iff.mp hc₀).1
        omega
    · intro h hh
      obtain ⟨c, hc⟩ := hs.calls h hh
      exact ⟨c, Threads.spawn_other hc⟩
    · intro qid worker hq
      rcases Threads.spawn_getElem? hq with hold | ⟨_, hnew⟩
      · exact hs.rest qid worker hold
      · rw [hnew] at hstarted
        cases hstarted
    · exact hs.invoked
  · exact ⟨List.nodup_nil, fun pid c hc => (nomatch (Pool.init_loop hc).2), nofun,
      fun pid n hn => (nomatch (Pool.init_loop hn).2), nofun⟩

/-! ## What a handler has been called with -/

/-- What handler `h` has been called with, in order. -/
def CompletionNotifier.handed (h : Nat) (n : CompletionNotifier) : List TaskCompletionInfo :=
  (n.invocations.filter (·.1 == h)).map (·.2)

/-- What a handler is told of a message. -/
def Shared.info (sh : Shared σ R) (msg : InternalCompletionMessage) : TaskCompletionInfo :=
  msg.publicInfo (sh.tasks msg.core).core

/-- What the worker has in hand for handler `h`, once `h` is registered. -/
def NotifierPc.owed (sh : Shared σ R) (h : Nat) : NotifierPc → List TaskCompletionInfo
  | .lock msg => [sh.info msg]
  | .deliver info rest => if h ∈ rest then [info] else []
  | _ => []

/-- The infos of the messages that were taken, but for the first `k` of them. -/
def Shared.announced (sh : Shared σ R) (k : Nat) : List TaskCompletionInfo :=
  ((sh.notifier.sent.take sh.notifier.taken).drop k).map sh.info

/-- Handler `h`, which was registered when the list had been read for `k` messages, has
been called with every message that was taken since, or is about to be, unless a panic
has ended the worker. -/
structure Logged (h k : Nat) (s : Pool σ R) : Prop where
  registered : h ∈ s.shared.notifier.handlers
  taken : k ≤ s.shared.notifier.taken
  handed : ∀ pid worker, s.At pid (.notifier worker) → worker.pc ≠ .unwound →
    s.shared.notifier.handed h ++ worker.pc.owed s.shared h = s.shared.announced k
  heard : s.shared.notifier.handed h <+: s.shared.announced k

omit [Semaphore σ] in
theorem CompletionNotifier.handed_eq {n n' : CompletionNotifier}
    (hinvocations : n'.invocations = n.invocations) : n'.handed h = n.handed h := by
  rw [handed, handed, hinvocations]

omit [Semaphore σ] in
/-- A call of one handler next to what the worker still owes. -/
theorem CompletionNotifier.handed_invoke (n : CompletionNotifier) (sh : Shared σ R)
    {handler : Nat} {info : TaskCompletionInfo} {rest : List Nat}
    (hnodup : (handler :: rest).Nodup) :
    (n.invoke handler info).handed h ++ NotifierPc.owed sh h (.deliver info rest) =
      n.handed h ++ NotifierPc.owed sh h (.deliver info (handler :: rest)) := by
  obtain ⟨hnew, -⟩ := List.nodup_cons.mp hnodup
  by_cases hself : handler = h
  · subst hself
    simp [invoke, handed, NotifierPc.owed, hnew]
  · simp [invoke, handed, NotifierPc.owed, hself, Ne.symm hself]

omit [Semaphore σ] in
/-- The next message is announced when it is taken. -/
theorem Shared.announced_take {msg : InternalCompletionMessage} (hk : k ≤ sh.notifier.taken)
    (hmsg : sh.notifier.sent[sh.notifier.taken]? = some msg) :
    ({ sh with notifier := { sh.notifier with taken := sh.notifier.taken + 1 } } :
      Shared σ R).announced k = sh.announced k ++ [sh.info msg] := by
  obtain ⟨hlt, hget⟩ := List.getElem?_eq_some_iff.mp hmsg
  have hlen : k ≤ (sh.notifier.sent.take sh.notifier.taken).length := by
    rw [List.length_take]
    omega
  show ((sh.notifier.sent.take (sh.notifier.taken + 1)).drop k).map sh.info = _
  rw [← List.take_append_getElem hlt, List.drop_append_of_le_length hlen, List.map_append, hget]
  rfl

omit [Semaphore σ] in
/-- The worker calls its handlers one by one, each once. -/
theorem NotifierStep.logged {b : Signal} {n n' : NotifierLoop} (h' : NotifierStep b sh n sh' n')
    (hmem : h ∈ sh.notifier.handlers) (hk : k ≤ sh.notifier.taken) (hrest : n.pc.rest.Nodup)
    (hhanded : sh.notifier.handed h ++ n.pc.owed sh h = sh.announced k) :
    k ≤ sh'.notifier.taken ∧ sh'.notifier.handed h <+: sh'.announced k ∧
      (n'.pc ≠ .unwound →
        sh'.notifier.handed h ++ n'.pc.owed sh' h = sh'.announced k) := by
  -- the calls so far are a part of those with the ones in hand
  have hprefix {called owed all : List TaskCompletionInfo} (hall : called ++ owed = all) :
      called <+: all := ⟨owed, hall⟩
  cases h' with
  | @recv msg hpc hmsg =>
    rw [hpc] at hhanded
    have hbefore : sh.notifier.handed h = sh.announced k :=
      (List.append_nil _).symm.trans hhanded
    rw [Shared.announced_take hk hmsg, ← hbefore]
    exact ⟨hk.trans (Nat.le_succ _), List.prefix_append _ _, fun _ => rfl⟩
  | skip _ hhandlers =>
    rw [hhandlers] at hmem
    cases hmem
  | @lock msg hpc =>
    rw [hpc] at hhanded
    have howed : NotifierPc.owed sh h (.deliver (sh.info msg) sh.notifier.handlers) =
        [sh.info msg] := if_pos hmem
    exact ⟨hk, hprefix hhanded, fun _ => (congrArg (_ ++ ·) howed).trans hhanded⟩
  | @invoke info handler rest hpc =>
    rw [hpc] at hhanded hrest
    have hcalled := (CompletionNotifier.handed_invoke sh.notifier sh hrest).trans hhanded
    exact ⟨hk, hprefix hcalled, fun _ => hcalled⟩
  | @unwind info handler rest hb hpc =>
    rw [hpc] at hhanded hrest
    have hcalled := (CompletionNotifier.handed_invoke sh.notifier sh hrest).trans hhanded
    exact ⟨hk, hprefix hcalled, fun hpc' => absurd rfl hpc'⟩
  | closed hpc | empty hpc | token hpc | delivered hpc =>
    rw [hpc] at hhanded
    exact ⟨hk, hprefix hhanded, fun _ => hhanded⟩

/-- What handlers are told of a message does not change any more once it was sent. -/
theorem info_kept {ok : Pool σ R → PoolEvent R → Prop} {s : Pool σ R}
    {msg : InternalCompletionMessage} (hreach : (poolMachine σ R cfg).Reachable ok s)
    (hevolves : s.shared.Evolves sh') (hmsg : msg ∈ s.shared.notifier.sent) :
    sh'.info msg = s.shared.info msg := by
  have hlt := lt_of_outcome hreach ((reported hreach).sent msg hmsg).2
  have htask := hevolves.tasks msg.core hlt
  rw [Shared.info, Shared.info, InternalCompletionMessage.publicInfo,
    InternalCompletionMessage.publicInfo, htask.taskId, htask.labels]

omit [Semaphore σ] in
theorem Shared.announced_eq (hle : sh.notifier.taken ≤ sh.notifier.sent.length)
    (htaken : sh'.notifier.taken = sh.notifier.taken)
    (hsent : ∃ more, sh'.notifier.sent = sh.notifier.sent ++ more)
    (hinfo : ∀ msg ∈ sh.notifier.sent, sh'.info msg = sh.info msg) :
    sh'.announced k = sh.announced k := by
  obtain ⟨more, hsent⟩ := hsent
  rw [announced, announced, htaken, hsent, List.take_append_of_le_length hle]
  refine List.map_congr_left fun msg hmsg => hinfo msg ?_
  exact List.mem_of_mem_take (List.mem_of_mem_drop hmsg)

section Runs

variable {ok : Pool σ R → PoolEvent R → Prop} {s s' : Pool σ R}

/-- The sink of a pool with a registered handler was opened. -/
theorem sink_of_handler (hreach : (poolMachine σ R cfg).Reachable ok s)
    (hmem : h ∈ s.shared.notifier.handlers) : s.shared.notifier.sink ≠ .unset := by
  obtain ⟨c, hc⟩ := (handlers hreach).calls h hmem
  have hpc := ((handlers hreach).returned h c hc).mp hmem
  exact sink_of_registering hreach hc (by rw [hpc]; nofun)

omit [Semaphore σ] in
theorem NotifierPc.owed_eq {sh sh' : Shared σ R} {pc : NotifierPc}
    (hinfo : ∀ msg, pc = .lock msg → sh'.info msg = sh.info msg) :
    pc.owed sh' h = pc.owed sh h := by
  cases pc with
  | lock msg => exact congrArg (fun info => [info]) (hinfo msg rfl)
  | _ => rfl

/-- The message in the worker's hand was sent. -/
theorem mem_sent_of_hand (hreach : (poolMachine σ R cfg).Reachable ok s) {worker : NotifierLoop}
    (hworker : s.At pid (.notifier worker)) {msg : InternalCompletionMessage}
    (hpc : worker.pc = .lock msg) : msg ∈ s.shared.notifier.sent :=
  List.mem_of_getElem? (((listening hreach).agrees pid worker hworker).hand msg hpc).2

theorem Logged.update {b : Signal} (hreach : (poolMachine σ R cfg).Reachable ok s)
    (hs : Logged h k s) (hp : s.At pid p)
    (hrun : Proc.run cfg b pid s.shared p = some (sh', p', sp)) :
    Logged h k (s.update pid sh' p' sp) := by
  have hmem : h ∈ sh'.notifier.handlers := by
    cases Proc.handlers_of_run hrun with
    | kept hhandlers => exact hhandlers ▸ hs.registered
    | pushed _ _ _ _ hhandlers =>
      rw [hhandlers]
      exact List.mem_append_left _ hs.registered
  by_cases hworker : ∃ n, p = .notifier n
  · obtain ⟨n, rfl⟩ := hworker
    cases Proc.callStep_of_run (p := .notifier n) True.intro hrun with
    | @notifier _ _ n' hstep =>
      have halive : n.pc ≠ .unwound := by
        intro hpc
        cases hstep with
        | recv h' | skip h' | lock h' | closed h' | empty h' | token h' | invoke h' | delivered h'
        | unwind _ h' => cases hpc.symm.trans h'
      obtain ⟨hk, hheard, hhanded⟩ := hstep.logged hs.registered hs.taken
        ((handlers hreach).rest pid n hp).1 (hs.handed pid n hp halive)
      refine ⟨hmem, hk, fun qid worker hq => ?_, hheard⟩
      rcases Threads.update_getElem? hp hq with ⟨-, heq⟩ | ⟨hne, hold⟩ | ⟨_, hnew⟩
      · cases heq
        exact hhanded
      · exact absurd (worker_unique hreach hold hp) hne
      · cases hnew
  · obtain ⟨hu, hno⟩ := Proc.undelivered_of_run (fun n hn => hworker ⟨n, hn⟩) hrun
    have hevolves := Shared.Evolves.proc (Proc.step_of_run hrun)
    have hannounced : sh'.announced k = s.shared.announced k :=
      Shared.announced_eq (listening hreach).taken_le hu.taken
        (Proc.queue_of_run hrun).grows fun msg hmsg => info_kept hreach hevolves hmsg
    have hcalled := CompletionNotifier.handed_eq (h := h) hu.invocations
    refine ⟨hmem, ?_, fun qid worker hq hpc => ?_, ?_⟩
    · rw [Threads.update_shared, hu.taken]
      exact hs.taken
    · rw [Threads.update_shared, hannounced, hcalled]
      rcases Threads.update_getElem? hp hq with ⟨-, heq⟩ | ⟨_, hold⟩ | ⟨_, hnew⟩
      · exact absurd heq.symm (hno worker)
      · rw [NotifierPc.owed_eq fun msg hmsg =>
          info_kept hreach hevolves (mem_sent_of_hand hreach hold hmsg)]
        exact hs.handed qid worker hold hpc
      · -- a worker is started with the first registration only
        exact absurd (Proc.started_worker (hnew ▸ hrun)).2 
          (sink_of_handler hreach hs.registered)
    · rw [Threads.update_shared, hannounced, hcalled]
      exact hs.heard

theorem Logged.spawn {c : Call R} (hreach : (poolMachine σ R cfg).Reachable ok s)
    (hs : Logged h k s) (hcall : c.enter s.shared = some (sh', sp)) :
    Logged h k (s.spawn sh' sp) := by
  obtain ⟨hnotifier, -, hstarted⟩ := Call.notifier_of_enter hcall
  have hinfo : ∀ msg ∈ s.shared.notifier.sent, sh'.info msg = s.shared.info msg :=
    fun msg hmsg => info_kept hreach (.quiet (Call.enter_quiet hcall).1) hmsg
  have hannounced : sh'.announced k = s.shared.announced k :=
    Shared.announced_eq (listening hreach).taken_le (by rw [hnotifier])
      ⟨[], by rw [hnotifier, List.append_nil]⟩ hinfo
  refine ⟨?_, ?_, fun qid worker hq hpc => ?_, ?_⟩
  · rw [Threads.spawn_shared, hnotifier]
    exact hs.registered
  · rw [Threads.spawn_shared, hnotifier]
    exact hs.taken
  · rw [Threads.spawn_shared, hannounced, hnotifier]
    rcases Threads.spawn_getElem? hq with hold | ⟨_, hnew⟩
    · rw [NotifierPc.owed_eq fun msg hmsg => hinfo msg (mem_sent_of_hand hreach hold hmsg)]
      exact hs.handed qid worker hold hpc
    · rw [hnew] at hstarted
      cases hstarted
  · rw [Threads.spawn_shared, hannounced, hnotifier]
    exact hs.heard

/-- A handler goes on being called with every message that is taken. -/
theorem Logged.steps (hreach : (poolMachine σ R cfg).Reachable Machine.anyStep s)
    (hs : Logged h k s) (hsteps : (poolMachine σ R cfg).Steps ok s s') : Logged h k s' := by
  refine Pool.invariant (I := Logged h k) hreach ?_ ?_ hsteps hs
  · intro s b pid p sh p' sp hreach hs _ hp hrun
    exact hs.update hreach hp hrun
  · intro s c sh sp hreach hs _ hcall
    exact hs.spawn hreach hcall

/-- A handler that has just been registered has been called with nothing. It is owed the
message that the worker has in hand. -/
theorem Logged.pushed_at {b : Signal} {c : AddHandlerCall}
    (hreach : (poolMachine σ R cfg).Reachable ok s) (hp : s.At pid (.addHandler c))
    (hpc : c.pc = .push) (hk : k ≤ s.shared.notifier.taken)
    (howed : ∀ qid n, s.At qid (.notifier n) → n.pc ≠ .unwound → n.pc.delivering = false →
      n.pc.owed s.shared pid = s.shared.announced k)
    (hrun : Proc.run cfg b pid s.shared (.addHandler c) = some (sh', p', sp)) :
    Logged pid k (s.update pid sh' p' sp) := by
  have hnew : pid ∉ s.shared.notifier.handlers := by
    rw [(handlers hreach).returned pid c hp, hpc]
    nofun
  have hnone : s.shared.notifier.handed pid = [] := by
    rw [CompletionNotifier.handed, List.map_eq_nil_iff, List.filter_eq_nil_iff]
    intro x hx heq
    exact hnew (beq_iff_eq.mp heq ▸ (handlers hreach).invoked x hx)
  cases Proc.callStep_of_run (p := .addHandler c) True.intro hrun with
  | addHandler hstep =>
    cases hstep with
    | init hinit | initialized hinit =>
      rw [hpc] at hinit
      cases hinit
    | push _ hreading =>
      refine ⟨List.mem_append_right _ (List.mem_singleton_self pid), hk,
        fun qid worker hq halive => ?_, ?_⟩
      · rcases Threads.update_getElem? hp hq with ⟨-, heq⟩ | ⟨_, hold⟩ | ⟨_, hsp⟩
        · cases heq
        · have hagrees := ((listening hreach).agrees qid worker hold).reading
          show s.shared.notifier.handed pid ++ worker.pc.owed s.shared pid = s.shared.announced k
          rw [hnone, List.nil_append]
          exact howed qid worker hold halive (hagrees.symm.trans hreading)
        · cases hsp
      · show s.shared.notifier.handed pid <+: _
        rw [hnone]
        exact List.nil_prefix

/-- It will be told of no message for which the worker has already read the list. -/
theorem Logged.pushed {b : Signal} {c : AddHandlerCall}
    (hreach : (poolMachine σ R cfg).Reachable ok s) (hp : s.At pid (.addHandler c))
    (hpc : c.pc = .push)
    (hrun : Proc.run cfg b pid s.shared (.addHandler c) = some (sh', p', sp)) :
    ∃ k, Logged pid k (s.update pid sh' p' sp) ∧
      ∀ msg ∈ s.shared.notifier.sent.take s.shared.notifier.taken,
        (∀ qid n, s.At qid (.notifier n) → n.pc ≠ .lock msg) →
        msg ∈ s.shared.notifier.sent.take k := by
  by_cases hhand : ∃ qid n msg, s.At qid (.notifier n) ∧ n.pc = .lock msg
  · obtain ⟨qid, n, msg, hn, hlock⟩ := hhand
    obtain ⟨hpos, hmsg⟩ := ((listening hreach).agrees qid n hn).hand msg hlock
    obtain ⟨j, hj⟩ : ∃ j, s.shared.notifier.taken = j + 1 := Nat.exists_eq_add_one.mpr hpos
    rw [hj, Nat.add_sub_cancel] at hmsg
    have htake : s.shared.notifier.sent.take s.shared.notifier.taken =
        s.shared.notifier.sent.take j ++ [msg] := by
      rw [hj, List.take_add_one, hmsg]
      rfl
    have hlen : (s.shared.notifier.sent.take j).length = j :=
      List.length_take_of_le (List.getElem?_eq_some_iff.mp hmsg).1.le
    refine ⟨j, .pushed_at hreach hp hpc (by omega) (fun rid m hm _ _ => ?_) hrun,
      fun msg' hmsg' hread => ?_⟩
    · obtain rfl := worker_unique hreach hn hm
      obtain rfl := Proc.notifier.inj (Option.some.inj (hn.symm.trans hm))
      rw [Shared.announced, htake, List.drop_append_of_le_length hlen.ge,
        List.drop_eq_nil_of_le hlen.le, hlock]
      rfl
    · rw [htake, List.mem_append, List.mem_singleton] at hmsg'
      refine hmsg'.resolve_right ?_
      rintro rfl
      exact hread qid n hn hlock
  · refine ⟨s.shared.notifier.taken, .pushed_at hreach hp hpc le_rfl (fun qid n hn _ hidle => ?_)
      hrun, fun msg' hmsg' _ => hmsg'⟩
    have hempty : s.shared.announced s.shared.notifier.taken = [] := by
      rw [Shared.announced, List.drop_eq_nil_of_le (List.length_take_le _ _)]
      rfl
    rw [hempty]
    cases hworker : n.pc with
    | lock msg => exact absurd ⟨qid, n, msg, hn, hworker⟩ hhand
    | deliver =>
      rw [hworker] at hidle
      cases hidle
    | _ => rfl

/-- Every registered handler has a log. -/
theorem logged (hreach : (poolMachine σ R cfg).Reachable ok s)
    (hmem : h ∈ s.shared.notifier.handlers) : ∃ k, Logged h k s := by
  refine Pool.invariant (I := fun s => ∀ h ∈ s.shared.notifier.handlers, ∃ k, Logged h k s)
    .refl ?_ ?_ hreach nofun h hmem
  · intro s b pid p sh p' sp hreach hs _ hp hrun h hmem
    rw [Threads.update_shared] at hmem
    cases Proc.handlers_of_run hrun with
    | kept hhandlers =>
      rw [hhandlers] at hmem
      obtain ⟨k, hk⟩ := hs h hmem
      exact ⟨k, hk.update hreach hp hrun⟩
    | @pushed c hpush hpc _ _ hhandlers =>
      rw [hhandlers, List.mem_append, List.mem_singleton] at hmem
      rcases hmem with hold | rfl
      · obtain ⟨k, hk⟩ := hs h hold
        exact ⟨k, hk.update hreach hp hrun⟩
      · subst hpush
        obtain ⟨k, hk, -⟩ := Logged.pushed hreach hp hpc hrun
        exact ⟨k, hk⟩
  · intro s c sh sp hreach hs _ hcall h hmem
    rw [Threads.spawn_shared, (Call.notifier_of_enter hcall).1] at hmem
    obtain ⟨k, hk⟩ := hs h hmem
    exact ⟨k, hk.spawn hreach hcall⟩

end Runs

end FuturesOrchestra
