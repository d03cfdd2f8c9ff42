import FuturesOrchestra.Proofs.Telling
import FuturesOrchestra.Proofs.Dispatchers

/-!
# What a returned shutdown call guarantees

Two laws of `shutdown` calls that run next to each other. The channel is closed for
good once a call has returned, when no call returns ahead of the one that closes the
sink and no first handler is registered after that. And a call that waits for every
dispatcher and for the notification worker, or finds them ended, leaves none of them
behind.
-/

namespace FuturesOrchestra

open Interleaving

variable {σ R : Type} {cfg : PoolConfig} {pid : Nat} {sh sh' : Shared σ R}
  {sp : Option (Proc R)} {p p' : Proc R}

/-! ## Closing the channel for good -/

/-- In a call that initiated the shutdown these lie behind its close of the sink. -/
def ShutdownPc.pastClose : ShutdownPc → Bool
  | .takeNotifier | .awaitNotifier | .dropSelf _ | .returned => true
  | _ => false

/-- The call has initiated the shutdown and has come past its close of the sink, before
its future was dropped, if it was. -/
def ShutdownCall.hasClosed (c : ShutdownCall) : Bool :=
  !c.already && (c.dropped.getD c.pc).pastClose

def Proc.hasClosed : Proc R → Bool
  | .shutdown c => c.hasClosed
  | _ => false

def Proc.hasReturned : Proc R → Bool
  | .shutdown c => c.pc == .returned
  | _ => false

/-- A shutdown call has returned or is past its close of the sink. -/
def Pool.isShut (s : Pool σ R) : Bool := s.procs.any fun p => p.hasClosed || p.hasReturned

/-- The call that initiated the shutdown is past its close of the sink; if its future was
dropped, that was after the close. -/
def Pool.initiatorClosed (s : Pool σ R) : Bool := s.procs.any (·.hasClosed)

/-- The event is no return of a call that found the token cancelled before the initiating
call has closed the sink of a pool with a handler, and no first registration in a pool
that is shut. -/
def closesInTurn (s : Pool σ R) : PoolEvent R → Bool
  | .run _ pid => match s.procs[pid]? with
    | some (.shutdown c) => !(c.already && c.dropped.isNone && c.pc == .dropSelf .done) ||
        s.shared.notifier.sink == .unset || s.initiatorClosed
    | some (.addHandler c) =>
      !(c.pc == .init && s.shared.notifier.sink == .unset) || !s.isShut
    | _ => true
  | .call _ => true

theorem CompletionNotifier.close_sink (n : CompletionNotifier) : n.close.sink ≠ .opened := by
  unfold close
  cases h : n.sink <;> simp [h]

/-- A call whose future was dropped is in the drop of its handle. -/
def ShutdownCall.Leaving (c : ShutdownCall) : Prop :=
  c.dropped.isSome = true → (∃ pc, c.pc = .dropSelf pc) ∨ c.pc = .abandoned

theorem ShutdownCall.Leaving.none {c : ShutdownCall} (hc : c.Leaving)
    (hdrop : ∀ pc, c.pc ≠ .dropSelf pc) (habandoned : c.pc ≠ .abandoned) : c.dropped = none := by
  rw [← Option.not_isSome_iff_eq_none]
  intro hdropped
  rcases hc hdropped with ⟨pc, hpc⟩ | hpc
  · exact hdrop pc hpc
  · exact habandoned hpc

theorem ShutdownStep.leaving {b : Signal} {c c' : ShutdownCall}
    (h : ShutdownStep cfg b sh c sh' c') (hc : c.Leaving) : c'.Leaving := by
  cases h with
  | dropSelf | abandon => exact fun _ => .inl ⟨_, rfl⟩
  | noNotifier | notifierDone | notifierTimeout => exact fun _ => .inl ⟨_, rfl⟩
  | abandoned => exact fun _ => .inr rfl
  | returned _ hdropped =>
    intro hsome
    rw [ShutdownCall.goto, hdropped] at hsome
    cases hsome
  | _ =>
    have hnone := hc.none (by simp_all) (by simp_all)
    intro hsome
    simp [ShutdownCall.goto, hnone] at hsome

/-- How a call comes past the close of the sink, or returns. -/
theorem ShutdownStep.closes {b : Signal} {c c' : ShutdownCall}
    (h : ShutdownStep cfg b sh c sh' c') (hc : c.Leaving)
    (hc' : c'.hasClosed = true ∨ c'.pc = .returned) :
    c.hasClosed = true ∨ (c.pc = .closeSink ∧ sh'.notifier = sh.notifier.close) ∨
      (c.already = true ∧ c.dropped = none ∧ c.pc = .dropSelf .done ∧ sh' = sh) := by
  cases h with
  | closeSink hpc => exact .inr (.inl ⟨hpc, rfl⟩)
  | returned hpc hdropped =>
    cases halready : c.already with
    | false =>
      exact .inl (by simp [ShutdownCall.hasClosed, ShutdownPc.pastClose, halready, hdropped, hpc])
    | true => exact .inr (.inr ⟨rfl, hdropped, hpc, rfl⟩)
  | abandon _ hpc =>
    refine .inl ?_
    have hnone := hc.none (by rcases hpc with h | ⟨_, _, h⟩ | h <;> simp [h])
      (by rcases hpc with h | ⟨_, _, h⟩ | h <;> simp [h])
    simpa [ShutdownCall.hasClosed, hnone] using hc'
  | joinEndAlready hpc halready =>
    simp [ShutdownCall.hasClosed, halready, ShutdownCall.goto] at hc'
  | dropSelf hpc =>
    refine .inl ?_
    cases hdropped : c.dropped <;>
      simpa [ShutdownCall.hasClosed, ShutdownPc.pastClose, hdropped, hpc] using hc'
  | abandoned hpc hdropped =>
    refine .inl ?_
    obtain ⟨pc, hpc'⟩ := Option.isSome_iff_exists.mp hdropped
    simpa [ShutdownCall.hasClosed, ShutdownCall.goto, hpc'] using hc'
  | noNotifier hpc | notifierDone hpc | notifierTimeout _ hpc | takeNotifier hpc =>
    refine .inl ?_
    have hnone := hc.none (by simp [hpc]) (by simp [hpc])
    simpa [ShutdownCall.hasClosed, ShutdownPc.pastClose, ShutdownCall.goto, hnone, hpc] using hc'
  | _ =>
    have hnone := hc.none (by simp_all) (by simp_all)
    simp [ShutdownCall.hasClosed, ShutdownPc.pastClose, ShutdownCall.goto, hnone] at hc'

theorem Pool.isShut_of_at {s : Pool σ R} {qid : Nat} {q : Proc R} (hq : s.At qid q)
    (h : q.hasClosed = true ∨ q.hasReturned = true) : s.isShut = true :=
  List.any_eq_true.mpr ⟨q, List.mem_of_getElem? hq, Bool.or_eq_true_iff.mpr h⟩

theorem Pool.at_of_isShut {s : Pool σ R} (h : s.isShut = true) :
    ∃ qid q, s.At qid q ∧ (q.hasClosed = true ∨ q.hasReturned = true) := by
  obtain ⟨q, hmem, hq⟩ := List.any_eq_true.mp h
  obtain ⟨qid, hqid⟩ := List.getElem?_of_mem hmem
  exact ⟨qid, q, hqid, Bool.or_eq_true_iff.mp hq⟩

variable [Semaphore σ]

section Runs

variable {ok : Pool σ R → PoolEvent R → Prop} {s s' : Pool σ R}

theorem call_leaving (h : (poolMachine σ R cfg).Reachable ok s) {c : ShutdownCall}
    (hc : s.At pid (.shutdown c)) : c.Leaving := by
  refine Pool.invariant (I := fun s => ∀ pid c, s.At pid (.shutdown c) → c.Leaving) .refl
    ?_ ?_ h ?_ pid c hc
  · intro s b pid p sh p' sp _ hs _ hp hrun qid c hc
    rcases Threads.update_getElem? hp hc with ⟨rfl, rfl⟩ | ⟨-, hold⟩ | ⟨-, hnew⟩
    · obtain ⟨c₀, rfl, hstep, -⟩ := Proc.shutdown_of_run hrun
      exact hstep.leaving (hs qid c₀ hp)
    · exact hs qid c hold
    · rcases Proc.started_of_run (hnew ▸ hrun) with ⟨w, heq⟩ | heq <;> cases heq
  · intro s call sh sp _ hs _ hcall qid c hc hdropped
    rcases Threads.spawn_getElem? hc with hold | ⟨-, hnew⟩
    · exact hs qid c hold hdropped
    · subst hnew
      rw [(Call.enter_shutdown hcall).2.2] at hdropped
      cases hdropped
  · intro pid c hc
    cases (Pool.init_loop hc).2

/-- In a pool that is shut the sink holds no sender. -/
def ClosedForGood (s : Pool σ R) : Prop :=
  s.isShut = true → s.shared.notifier.sink ≠ .opened

theorem ClosedForGood.update {b : Signal} (hreach : (poolMachine σ R cfg).Reachable ok s)
    (hs : ClosedForGood s) (hok : closesInTurn s (.run b pid) = true)
    (hp : s.At pid p) (hrun : Proc.run cfg b pid s.shared p = some (sh', p', sp)) :
    ClosedForGood (s.update pid sh' p' sp) := by
  have hkept (hshut : s.isShut = true) : sh'.notifier.sink ≠ .opened := by
    cases Proc.sink_of_run hrun with
    | kept hsink =>
      rw [hsink]
      exact hs hshut
    | opened haddHandler hpc hunset =>
      subst haddHandler
      simp [closesInTurn, hp, hpc, hunset, hshut] at hok
    | closed _ _ hsink | dropped _ _ _ hsink =>
      rw [hsink]
      decide
  intro hshut
  rw [Threads.update_shared]
  obtain ⟨qid, q, hq, hclosed⟩ := Pool.at_of_isShut hshut
  rcases Threads.update_getElem? hp hq with ⟨-, rfl⟩ | ⟨-, hold⟩ | ⟨-, hnew⟩
  · cases q with
    | shutdown c' =>
      obtain ⟨c, rfl, hstep, -⟩ := Proc.shutdown_of_run hrun
      have hc' : c'.hasClosed = true ∨ c'.pc = .returned := hclosed.imp id beq_iff_eq.mp
      rcases hstep.closes (call_leaving hreach hp) hc' with
        hbefore | ⟨-, hclose⟩ | ⟨halready, hdropped, hpc, rfl⟩
      · exact hkept (Pool.isShut_of_at hp (.inl hbefore))
      · rw [hclose]
        exact CompletionNotifier.close_sink _
      · -- a call that found the token cancelled returns behind the one that has closed
        simp only [closesInTurn, hp, halready, hdropped, hpc, Pool.initiatorClosed,
          Option.isNone_none, Bool.or_eq_true, Bool.not_eq_true', beq_iff_eq] at hok
        rcases hok with (hno | hunset) | hany
        · cases hno
        · rw [hunset]
          decide
        · obtain ⟨r, hmem, hr⟩ := List.any_eq_true.mp hany
          obtain ⟨rid, hrid⟩ := List.getElem?_of_mem hmem
          exact hkept (Pool.isShut_of_at hrid (.inl hr))
    | _ => rcases hclosed with h | h <;> cases h
  · exact hkept (Pool.isShut_of_at hold hclosed)
  · rcases Proc.started_of_run (hnew ▸ hrun) with ⟨w, rfl⟩ | rfl <;>
      rcases hclosed with h | h <;> cases h

omit [Semaphore σ] in
theorem ClosedForGood.spawn {c : Call R} (hs : ClosedForGood s)
    (hcall : c.enter s.shared = some (sh', sp)) : ClosedForGood (s.spawn sh' sp) := by
  intro hshut
  rw [Threads.spawn_shared, (Call.notifier_of_enter hcall).1]
  obtain ⟨qid, q, hq, hclosed⟩ := Pool.at_of_isShut hshut
  rcases Threads.spawn_getElem? hq with hold | ⟨-, hnew⟩
  · exact hs (Pool.isShut_of_at hold hclosed)
  · cases q with
    | shutdown c' =>
      subst hnew
      obtain ⟨hpc, -, hdropped⟩ := Call.enter_shutdown hcall
      rcases hclosed with h | h <;>
        simp [Proc.hasClosed, Proc.hasReturned, ShutdownCall.hasClosed, ShutdownPc.pastClose, hpc,
          hdropped] at h
    | _ => rcases hclosed with h | h <;> cases h

theorem closedForGood
    (h : (poolMachine σ R cfg).Reachable (fun s e => closesInTurn s e = true) s) :
    ClosedForGood s := by
  refine Pool.invariant (I := ClosedForGood) .refl ?_ ?_ h ?_
  · intro s b pid p sh p' sp hreach hs hok hp hrun
    exact hs.update hreach hok hp hrun
  · intro s c sh sp _ hs _ hcall
    exact hs.spawn hcall
  · intro _ hopened
    cases hopened

/-- A stored worker handle, or a call that waits for the worker, means that there is a
worker. -/
structure WorkerKnown (s : Pool σ R) : Prop where
  stored : s.shared.notifier.workerHandle = true → s.shared.notifier.sink ≠ .unset
  awaited : ∀ pid c, s.At pid (.shutdown c) → c.pc = .awaitNotifier →
    s.shared.notifier.sink ≠ .unset

omit [Semaphore σ] in
theorem ShutdownStep.awaits {b : Signal} {c c' : ShutdownCall} (h : ShutdownStep cfg b sh c sh' c')
    (hc' : c'.pc = .awaitNotifier) : sh.notifier.workerHandle = true := by
  cases h with
  | takeNotifier _ hhandle => exact hhandle
  | _ => cases hc'

theorem workerKnown (h : (poolMachine σ R cfg).Reachable ok s) : WorkerKnown s := by
  refine Pool.invariant (I := WorkerKnown) .refl ?_ ?_ h ?_
  · intro s b pid p sh p' sp _ hs _ hp hrun
    have hset := (Proc.sink_of_run hrun).advances.set
    refine ⟨fun hstored => ?_, fun qid c hq hpc => ?_⟩
    · rw [Threads.update_shared] at hstored ⊢
      cases p with
      | notifier n =>
        obtain ⟨hworker⟩ := Proc.callStep_of_run (p := .notifier n) True.intro hrun
        exact hset (hs.stored (by cases ‹NotifierStep _ _ _ _ _› <;> exact hstored))
      | _ =>
        obtain ⟨hu, -⟩ := Proc.undelivered_of_run (by nofun) hrun
        exact (hu.workerHandle hstored).elim (fun h => hset (hs.stored h)) id
    · rw [Threads.update_shared]
      rcases Threads.update_getElem? hp hq with ⟨-, rfl⟩ | ⟨-, hold⟩ | ⟨-, hnew⟩
      · obtain ⟨c₀, rfl, hstep, -⟩ := Proc.shutdown_of_run hrun
        exact hset (hs.stored (hstep.awaits hpc))
      · exact hset (hs.awaited qid c hold hpc)
      · rcases Proc.started_of_run (hnew ▸ hrun) with ⟨w, heq⟩ | heq <;> cases heq
  · intro s c sh sp _ hs _ hcall
    have hnotifier := (Call.notifier_of_enter hcall).1
    refine ⟨fun hstored => ?_, fun qid d hq hpc => ?_⟩
    · rw [Threads.spawn_shared, hnotifier] at hstored ⊢
      exact hs.stored hstored
    · rw [Threads.spawn_shared, hnotifier]
      rcases Threads.spawn_getElem? hq with hold | ⟨-, hnew⟩
      · exact hs.awaited qid d hold hpc
      · subst hnew
        rw [(Call.enter_shutdown hcall).1] at hpc
        cases hpc
  · refine ⟨nofun, fun pid c hc => ?_⟩
    cases (Pool.init_loop hc).2

end Runs

/-- Once a `shutdown` call has returned, the completion sink holds no sender, no step
starts a notification worker, and a call that waits for the worker waits for senders
that tasks in flight hold: in every run in which no call that found the token cancelled
returns before the initiating call has closed the sink, if there is a handler, and no
first handler is registered after that close or after a return. -/
theorem shutdown_closes_channel (σ R : Type) [Semaphore σ] (cfg : PoolConfig) :
    let M := poolMachine σ R cfg
    ∀ (s : Pool σ R) (pid : Nat) (c : ShutdownCall),
      M.Reachable (fun s e => closesInTurn s e = true) s → s.At pid (.shutdown c) →
      c.pc = .returned →
      s.shared.notifier.sink ≠ .opened ∧
        (∀ e s', closesInTurn s e = true → M.step s e = some s' →
          s'.tally Proc.workers = s.tally Proc.workers) ∧
        ∀ qid d, s.At qid (.shutdown d) → d.pc = .awaitNotifier →
          s.shared.notifier.senders = s.tally Proc.senders := by
  intro M s pid c h hc hpc
  have hshut : s.isShut = true :=
    Pool.isShut_of_at hc (.inr (by simp [Proc.hasReturned, hpc]))
  have hsink := closedForGood h hshut
  refine ⟨hsink, fun e s' hok hstep => ?_, fun qid d hd hawaits => ?_⟩
  · have hafter : M.Reachable Machine.anyStep s' := h.any.tail trivial hstep
    rw [workers_counted hafter, workers_counted h, CompletionNotifier.isSet,
      CompletionNotifier.isSet]
    have hunset : s'.shared.notifier.sink = .unset ↔ s.shared.notifier.sink = .unset := by
      cases e with
      | run b qid =>
        obtain ⟨p, sh, p', sp, hp, hrun, rfl⟩ := Program.step_run hstep
        rw [Threads.update_shared]
        cases Proc.sink_of_run hrun with
        | kept hsame => rw [hsame]
        | opened haddHandler hinit hwas =>
          subst haddHandler
          simp [closesInTurn, hp, hinit, hwas, hshut] at hok
        | closed _ hopened | dropped _ _ hopened => exact absurd hopened hsink
      | call c =>
        obtain ⟨sh, sp, hcall, rfl⟩ := Program.step_call hstep
        rw [Threads.spawn_shared, (Call.notifier_of_enter hcall).1]
    simp only [hunset]
  · have hset := (workerKnown h).awaited qid d hd hawaits
    have hcounted := senders_counted h
    rw [CompletionNotifier.pooled, if_neg hsink, CompletionNotifier.live, if_neg hset] at hcounted
    omega

/-- Two clones of a pool with a handler are shut down next to each other. -/
def shutTwice : Pool FairSemaphore Nat :=
  let M := poolMachine FairSemaphore Nat (.manager 1 1 "pool")
  M.after closesInTurn
    (.call (.addHandler 0) :: stepping [1, 1] ++ .call (.clone 0) :: .call (.shutdown 0 .graceful) ::
      stepping [3, 3, 3, 3, 3, 3] ++ .call (.shutdown 1 .graceful) :: stepping [4, 4, 4, 4] ++
      stepping [0, 0, 0] ++ stepping [3, 3, 3, 3, 2] ++ stepping [4, 4, 4, 4, 4]) M.init

theorem shutdown_closes_channel_twice :
    shutTwice.At 3 (.shutdown ⟨0, .graceful, false, true, none, .awaitNotifier⟩) ∧
      shutTwice.shared.notifier.sink ≠ .opened ∧
      shutTwice.shared.notifier.senders = shutTwice.tally Proc.senders := by
  have hclosed := shutdown_closes_channel FairSemaphore Nat (.manager 1 1 "pool") shutTwice 4
    ⟨1, .graceful, true, true, none, .returned⟩ (Machine.steps_after _ _ _ _) rfl rfl
  exact ⟨rfl, hclosed.1, hclosed.2.2 3 _ rfl rfl⟩

/-- A pool without a handler was shut down; then a handler is registered on a clone. -/
def registeredAfterShutdown : Pool FairSemaphore Nat :=
  let M := poolMachine FairSemaphore Nat (.manager 1 1 "pool")
  M.after (fun _ _ => true)
    (.call (.clone 0) :: .call (.shutdown 0 .graceful) :: stepping [1, 1, 1, 1, 1, 1] ++
      stepping [0, 0, 0] ++ stepping [1, 1, 1, 1, 1, 1, 1] ++ .call (.addHandler 1) ::
      stepping [2]) M.init

/-- The registration opens the channel and starts a worker. -/
theorem handler_resurrects_channel :
    (poolMachine FairSemaphore Nat (.manager 1 1 "pool")).Reachable Machine.anyStep
        registeredAfterShutdown ∧
      registeredAfterShutdown.At 1 (.shutdown ⟨0, .graceful, false, true, none, .returned⟩) ∧
      registeredAfterShutdown.shared.notifier.sink = .opened ∧
      registeredAfterShutdown.At 3 (.notifier ⟨false, .recv⟩) :=
  ⟨(Machine.steps_after _ _ _ _).any, rfl, by decide, rfl⟩

/-! ## Leaving nobody behind -/

/-- The dispatcher task of lane `i` has ended. -/
def Shared.laneDone (sh : Shared σ R) (i : Nat) : Bool := (sh.lanes[i]?).any (·.done)

/-- The call takes the join handle of every dispatcher that has not ended, and the handle
of the notification worker unless that has ended or was never started. -/
def ShutdownCall.takesAll (sh : Shared σ R) (c : ShutdownCall) : Bool :=
  match c.pc with
  | .takeHandles =>
    (List.range sh.lanes.length).all fun i => sh.joinHandles.contains i || sh.laneDone i
  | .takeNotifier =>
    sh.notifier.workerHandle || sh.notifier.workerDone || sh.notifier.sink == .unset
  | _ => true

/-- The call is past its wait for the notification worker and about to return. -/
def ShutdownCall.leaves (c : ShutdownCall) : Bool :=
  c.dropped.isNone && match c.pc with
    | .dropSelf _ => true
    | _ => false

def Pool.hasLeft (pid : Nat) (s : Pool σ R) : Bool :=
  (s.procs[pid]?).any fun p => match p with
    | .shutdown c => c.leaves
    | _ => false

/-- No timeout of call `pid` fires, it does not find the handle of a dispatcher or of the
worker taken while that is running, and no first handler is registered while it is about
to return. -/
def waitsForAll (pid : Nat) (s : Pool σ R) : PoolEvent R → Bool
  | .run b qid => match s.procs[qid]? with
    | some (.shutdown c) => qid != pid || (b != .timeout && c.takesAll s.shared)
    | some (.addHandler c) =>
      !(c.pc == .init && s.shared.notifier.sink == .unset) || !s.hasLeft pid
    | _ => true
  | .call _ => true

/-- The notification worker has ended, or was never started. -/
def CompletionNotifier.over (n : CompletionNotifier) : Prop :=
  n.workerDone = true ∨ n.sink = .unset

/-- What a call that was not dropped has waited for. -/
def ShutdownCall.Waited (sh : Shared σ R) (c : ShutdownCall) : Prop :=
  c.dropped = none → match c.pc with
    | .join handles => ∀ i, i < sh.lanes.length → i ∈ handles ∨ sh.laneDone i = true
    | .closeSink | .takeNotifier | .awaitNotifier =>
      ∀ i, i < sh.lanes.length → sh.laneDone i = true
    | .dropSelf _ => (∀ i, i < sh.lanes.length → sh.laneDone i = true) ∧ sh.notifier.over
    | _ => True

omit [Semaphore σ] in
/-- What a call has waited for goes on being over. -/
theorem ShutdownCall.Waited.evolve {c : ShutdownCall} (h : c.Waited sh)
    (hlen : sh'.lanes.length = sh.lanes.length)
    (hdone : ∀ i, sh.laneDone i = true → sh'.laneDone i = true)
    (hover : c.leaves = true → sh.notifier.over → sh'.notifier.over) : c.Waited sh' := by
  intro hdropped
  have hbefore := h hdropped
  rw [ShutdownCall.leaves, hdropped] at hover
  cases hpc : c.pc <;> rw [hpc] at hbefore hover <;> simp only [hlen] <;>
    first
    | exact True.intro
    | exact fun i hi => (hbefore i hi).imp id (hdone i)
    | exact fun i hi => hdone i (hbefore i hi)
    | exact ⟨fun i hi => hdone i (hbefore.1 i hi), hover rfl hbefore.2⟩

omit [Semaphore σ] in
theorem CompletionNotifier.over_close {n : CompletionNotifier} (hover : n.over) :
    n.close.over := by
  rcases hover with hdone | hunset
  · refine .inl ?_
    unfold close
    split <;> exact hdone
  · refine .inr ?_
    simp [close, hunset]

omit [Semaphore σ] in
theorem DropStep.over {closed closed' : Bool} {pc pc' : DropPc}
    (h : DropStep sh closed pc sh' closed' pc') (hover : sh.notifier.over) :
    sh'.notifier.over := by
  cases h with
  | closeSink | releaseLast => exact CompletionNotifier.over_close hover
  | _ => exact hover

omit [Semaphore σ] in
/-- The call's own steps. -/
theorem ShutdownStep.waited {b : Signal} {c c' : ShutdownCall} (h : ShutdownStep cfg b sh c sh' c')
    (hb : b ≠ .timeout) (htakes : c.takesAll sh = true) (hc : c.Waited sh) : c'.Waited sh' := by
  cases h with
  | takeHandles hpc =>
    intro _ i hi
    simp only [ShutdownCall.takesAll, hpc, List.all_eq_true, List.mem_range, Bool.or_eq_true,
      List.contains_iff_mem] at htakes
    exact htakes i hi
  | @joined lane handles items receiver hpc hlane =>
    intro hdropped i hi
    have hbefore := hc hdropped
    rw [hpc] at hbefore
    rcases hbefore i hi with hmem | hdone
    · rcases List.mem_cons.mp hmem with rfl | hrest
      · exact .inr (by simp [Shared.laneDone, hlane])
      · exact .inl hrest
    · exact .inr hdone
  | joinEnd hpc | joinEndAlready hpc =>
    intro hdropped i hi
    have hbefore := hc hdropped
    rw [hpc] at hbefore
    exact (hbefore i hi).resolve_left (List.not_mem_nil)
  | closeSink hpc | takeNotifier hpc =>
    intro hdropped
    have hbefore := hc hdropped
    rw [hpc] at hbefore
    exact hbefore
  | noNotifier hpc hhandle =>
    intro hdropped
    have hbefore := hc hdropped
    rw [hpc] at hbefore
    simp only [ShutdownCall.takesAll, hpc, hhandle, Bool.or_eq_true, beq_iff_eq] at htakes
    exact ⟨hbefore, htakes.imp (fun h => h.resolve_left nofun) id⟩
  | notifierDone hpc hdone =>
    intro hdropped
    have hbefore := hc hdropped
    rw [hpc] at hbefore
    exact ⟨hbefore, .inl hdone⟩
  | waitTimeout hb' | joinTimeout hb' | notifierTimeout hb' => exact absurd hb' hb
  | dropSelf hpc hdrop =>
    intro hdropped
    have hbefore := hc hdropped
    rw [hpc] at hbefore
    have hlanes : sh'.lanes = sh.lanes := by cases hdrop <;> rfl
    refine ⟨?_, hdrop.over hbefore.2⟩
    simp only [Shared.laneDone, hlanes]
    exact hbefore.1
  | abandon => rintro ⟨⟩
  | _ => exact fun _ => True.intro

section Runs

variable {ok : Pool σ R → PoolEvent R → Prop} {s s' : Pool σ R}

theorem laneDone_iff {d : DispatcherLoop} (h : (poolMachine σ R cfg).Reachable ok s)
    (hd : s.At pid (.loop d)) : s.shared.laneDone pid = true ↔ d.pc = .exited := by
  obtain ⟨l, hl, hagrees⟩ := (dispatchers h).agrees pid d hd
  rw [Shared.laneDone, hl]
  exact hagrees.done

theorem LoopStep.not_exited {d d' : DispatcherLoop} (h : LoopStep cfg pid sh d sh' d' sp) :
    d.pc ≠ .exited := by
  intro hpc
  cases h <;> simp_all

/-- An exited loop takes no step, and nobody else ends its lane. -/
theorem laneDone_kept {b : Signal} {i : Nat} (hreach : (poolMachine σ R cfg).Reachable ok s)
    (hp : s.At pid p) (hrun : Proc.run cfg b pid s.shared p = some (sh', p', sp))
    (hdone : s.shared.laneDone i = true) : sh'.laneDone i = true := by
  obtain ⟨l, hl, hl'⟩ : ∃ l, s.shared.lanes[i]? = some l ∧ l.done = true := by
    simpa [Shared.laneDone, Option.any_eq_true] using hdone
  cases Proc.step_of_run hrun with
  | submit hstep =>
    obtain ⟨l', hlane, hext⟩ := hstep.lane_extended hl
    rw [Shared.laneDone, hlane, Option.any_some, hext.done, hl']
  | @loop d _ d' _ hstep =>
    have hlane := (dispatchers hreach).lane pid d hp
    have hne : i ≠ d.lane := by
      rintro rfl
      rw [hlane] at hdone
      exact hstep.not_exited ((laneDone_iff hreach hp).mp hdone)
    rw [Shared.laneDone, hstep.lane_other hne]
    exact hdone
  | wrapper hstep =>
    have hlanes : sh'.lanes = s.shared.lanes := by cases hstep <;> simp
    rw [Shared.laneDone, hlanes]
    exact hdone
  | bystander _ _ hstep =>
    rw [Shared.laneDone, hstep.1.lanes]
    exact hdone

/-- Only the first registration starts a worker where there is none. -/
theorem over_kept {b : Signal} (hrun : Proc.run cfg b pid s.shared p = some (sh', p', sp))
    (hlate : ∀ c, p = .addHandler c → c.pc = .init → s.shared.notifier.sink ≠ .unset)
    (hover : s.shared.notifier.over) : sh'.notifier.over := by
  rcases hover with hdone | hunset
  · exact .inl (Proc.done_of_run hrun hdone)
  · cases Proc.sink_of_run hrun with
    | kept hsink => exact .inr (hsink.trans hunset)
    | opened haddHandler hpc => exact absurd hunset (hlate _ haddHandler hpc)
    | closed _ hopened | dropped _ _ hopened =>
      rw [hunset] at hopened
      cases hopened

/-- What call `pid` has waited for is over. -/
def Waits (pid : Nat) (s : Pool σ R) : Prop :=
  ∀ c, s.At pid (.shutdown c) → c.Waited s.shared

theorem waits (h : (poolMachine σ R cfg).Reachable (fun s e => waitsForAll pid s e = true) s) :
    Waits pid s := by
  refine Pool.invariant (I := Waits pid) .refl ?_ ?_ h ?_
  · intro s b qid p sh p' sp hreach hs hok hp hrun c hc
    rw [Threads.update_shared]
    rcases Threads.update_getElem? hp hc with ⟨rfl, heq⟩ | ⟨hne, hold⟩ | ⟨-, hnew⟩
    · subst heq
      obtain ⟨c₀, rfl, hstep, -⟩ := Proc.shutdown_of_run hrun
      simp only [waitsForAll, hp, bne_self_eq_false, Bool.false_or, Bool.and_eq_true,
        bne_iff_ne, ne_eq] at hok
      exact hstep.waited hok.1 hok.2 (hs c₀ hp)
    · refine (hs c hold).evolve (Shared.Evolves.proc (Proc.step_of_run hrun)).lanes
        (fun i => laneDone_kept hreach hp hrun) fun hleaves => over_kept hrun ?_
      rintro d rfl hpc hunset
      simp [waitsForAll, hp, hpc, hunset, Pool.hasLeft, hold, hleaves] at hok
    · rcases Proc.started_of_run (hnew ▸ hrun) with ⟨w, heq⟩ | heq <;> cases heq
  · intro s call sh sp _ hs _ hcall c hc
    rw [Threads.spawn_shared]
    rcases Threads.spawn_getElem? hc with hold | ⟨-, hnew⟩
    · have hlanes := (Call.enter_quiet hcall).1.lanes
      refine (hs c hold).evolve (by rw [hlanes]) (fun i hi => ?_) fun _ hover => ?_
      · rw [Shared.laneDone, hlanes]
        exact hi
      · rw [(Call.notifier_of_enter hcall).1]
        exact hover
    · subst hnew
      intro _
      rw [(Call.enter_shutdown hcall).1]
      exact True.intro
  · intro c hc
    cases (Pool.init_loop hc).2

/-- A pool without a worker has sent no message. -/
theorem sent_of_unset (h : (poolMachine σ R cfg).Reachable ok s)
    (hunset : s.shared.notifier.sink = .unset) : s.shared.notifier.sent = [] := by
  refine Pool.invariant (I := fun s => s.shared.notifier.sink = .unset →
    s.shared.notifier.sent = []) .refl ?_ ?_ h (fun _ => rfl) hunset
  · intro s b pid p sh p' sp hreach hs _ hp hrun hunset
    have hbefore : s.shared.notifier.sink = .unset :=
      by_contra fun hset => (Proc.sink_of_run hrun).advances.set hset hunset
    cases Proc.queue_of_run hrun with
    | kept hsent =>
      rw [Threads.update_shared, hsent]
      exact hs hbefore
    | sent hreports =>
      have hcounted := senders_counted hreach
      have hheld := Threads.le_tally (g := Proc.senders) hp
      rw [hreports.senders] at hheld
      rw [CompletionNotifier.live, if_pos hbefore] at hcounted
      omega
  · intro s c sh sp _ hs _ hcall
    rw [Threads.spawn_shared, (Call.notifier_of_enter hcall).1]
    exact hs

/-- When the worker is over, and no panic has ended it, nobody holds a sender and every
message was taken. -/
theorem drained_of_over (h : (poolMachine σ R cfg).Reachable ok s) (hwell : WorkerWell s)
    (hover : s.shared.notifier.over) : s.tally Proc.senders = 0 ∧
      s.shared.notifier.taken = s.shared.notifier.sent.length := by
  have hcounted := senders_counted h
  have hlistening := listening h
  rcases hover with hdone | hunset
  · obtain ⟨pid, n, hn, hpc⟩ := worker_ended h hwell hdone
    obtain ⟨hlive, htaken⟩ := hlistening.drained pid n hn hpc
    exact ⟨by omega, htaken⟩
  · have hle := hlistening.taken_le
    rw [CompletionNotifier.live, if_pos hunset] at hcounted
    rw [sent_of_unset h hunset] at hle ⊢
    exact ⟨by omega, Nat.le_zero.mp hle⟩

/-- When the worker is over, and no panic has ended it, every handler was called with all
messages that had not been taken when it was registered. -/
theorem heard_of_over {s₀ : Pool σ R} {k : Nat} (h₀ : (poolMachine σ R cfg).Reachable ok s₀)
    (hsteps : (poolMachine σ R cfg).Steps Machine.anyStep s₀ s) (hwell : WorkerWell s)
    (hover : s.shared.notifier.over) (hmem : k ∈ s₀.shared.notifier.handlers) :
    (s.shared.notifier.sent.drop s₀.shared.notifier.taken).map s.shared.info <:+
      s.shared.notifier.handed k := by
  obtain ⟨n, hlogged⟩ := logged h₀ hmem
  have hset := (Pool.sink_advances hsteps).set (sink_of_handler h₀ hmem)
  have hdone : s.shared.notifier.workerDone = true := hover.resolve_right hset
  rw [(hlogged.steps h₀.any hsteps).finished (h₀.any.trans hsteps) hwell hdone]
  refine List.IsSuffix.map _ ?_
  obtain ⟨m, hm⟩ := Nat.exists_eq_add_of_le hlogged.taken
  rw [hm, ← List.drop_drop]
  exact List.drop_suffix _ _

/-- By the step with which a call returns, all that it waits for is over. -/
theorem over_of_return {s' : Pool σ R} {e : PoolEvent R} {c c' : ShutdownCall}
    (h : (poolMachine σ R cfg).Reachable (fun s e => waitsForAll pid s e = true) s)
    (hstep : (poolMachine σ R cfg).step s e = some s') (hc : s.At pid (.shutdown c))
    (hpc : c.pc ≠ .returned) (hc' : s'.At pid (.shutdown c')) (hpc' : c'.pc = .returned) :
    (∀ i, i < s'.shared.lanes.length → s'.shared.laneDone i = true) ∧
      s'.shared.notifier.over := by
  -- it was not at its return before the step
  have hold (hkept : s.At pid (.shutdown c')) : c'.pc ≠ .returned := by
    cases hc.symm.trans hkept
    exact hpc
  cases e with
  | run b qid =>
    obtain ⟨p, sh, p', sp, hp, hrun, rfl⟩ := Program.step_run hstep
    rcases Threads.update_getElem? hp hc' with ⟨rfl, heq⟩ | ⟨-, hkept⟩ | ⟨-, hnew⟩
    · subst heq
      obtain ⟨d, rfl, hreturn, -⟩ := Proc.shutdown_of_run hrun
      rw [Threads.update_shared]
      have hwaited := waits h d hp
      cases hreturn with
      | returned hdone hdropped =>
        have hboth := hwaited hdropped
        rw [hdone] at hboth
        exact hboth
      | _ => cases hpc'
    · exact absurd hpc' (hold hkept)
    · rcases Proc.started_of_run (hnew ▸ hrun) with ⟨w, heq⟩ | heq <;> cases heq
  | call a =>
    obtain ⟨sh, sp, hcall, rfl⟩ := Program.step_call hstep
    rcases Threads.spawn_getElem? hc' with hkept | ⟨-, hnew⟩
    · exact absurd hpc' (hold hkept)
    · subst hnew
      rw [(Call.enter_shutdown hcall).1] at hpc'
      cases hpc'

end Runs

/-- When call `pid` of `shutdown` returns, every dispatcher loop has exited, and the
notification worker has ended or was never started. If no panic has ended the worker,
nobody can report a task any more, every message was taken, and every handler was called
with all messages that had not been taken when it was registered. This holds in every run
in which no timeout of the call fires, it does not find a handle taken whose dispatcher or
worker is still running, and no first handler is registered while it returns. -/
theorem shutdown_leaves_nobody_behind (σ R : Type) [Semaphore σ] (cfg : PoolConfig) :
    let M := poolMachine σ R cfg
    ∀ (pid : Nat) (s₀ s s' : Pool σ R) (e : PoolEvent R) (c c' : ShutdownCall),
      M.Reachable (fun s e => waitsForAll pid s e = true) s₀ →
      M.Steps (fun s e => waitsForAll pid s e = true) s₀ s →
      waitsForAll pid s e = true → M.step s e = some s' →
      s.At pid (.shutdown c) → c.pc ≠ .returned →
      s'.At pid (.shutdown c') → c'.pc = .returned →
      (∀ i d, s'.At i (.loop d) → d.pc = .exited) ∧
        s'.shared.notifier.over ∧
        (WorkerWell s' → s'.tally Proc.senders = 0 ∧
          s'.shared.notifier.taken = s'.shared.notifier.sent.length ∧
          ∀ h ∈ s₀.shared.notifier.handlers,
            (s'.shared.notifier.sent.drop s₀.shared.notifier.taken).map s'.shared.info <:+
              s'.shared.notifier.handed h) := by
  intro M pid s₀ s s' e c c' hreach₀ hsteps hok hstep hc hpc hc' hpc'
  have hreach := hreach₀.trans hsteps
  have hreach' : M.Reachable Machine.anyStep s' := hreach.any.tail trivial hstep
  obtain ⟨hlanes, hover⟩ := over_of_return hreach hstep hc hpc hc' hpc'
  refine ⟨fun i d hd => ?_, hover, fun hwell => ?_⟩
  · obtain ⟨l, hl, -⟩ := (dispatchers hreach').agrees i d hd
    exact (laneDone_iff hreach' hd).mp (hlanes i (List.getElem?_eq_some_iff.mp hl).1)
  · obtain ⟨hsenders, htaken⟩ := drained_of_over hreach' hwell hover
    have hsteps' : M.Steps Machine.anyStep s₀ s' := hsteps.any.tail trivial hstep
    exact ⟨hsenders, htaken, fun h hmem => heard_of_over hreach₀ hsteps' hwell hover hmem⟩

/-- A pool with a handler has run a task; the handler was not told of it yet. -/
def servedAndHandled : Pool FairSemaphore Nat :=
  let M := poolMachine FairSemaphore Nat (.manager 1 1 "pool")
  M.after (fun s e => waitsForAll 5 s e && sparesWorker s e)
    (.call (.addHandler 0) :: stepping [1, 1] ++ .call (.submit 0 ∅ (.ready 7)) ::
      stepping (List.replicate 8 3 ++ List.replicate 9 0 ++ List.replicate 6 4)) M.init

/-- Then two clones are shut down next to each other, and the first call is about to
return. -/
def shutNextToEachOther : Pool FairSemaphore Nat :=
  let M := poolMachine FairSemaphore Nat (.manager 1 1 "pool")
  M.after (fun s e => waitsForAll 5 s e && sparesWorker s e)
    (.call (.clone 0) :: .call (.shutdown 0 .graceful) :: stepping [5, 5, 5, 5, 5, 5] ++
      .call (.shutdown 1 .graceful) :: stepping [6, 6, 6, 6] ++ stepping [0, 0, 0] ++
      stepping [5, 5, 5, 5] ++ stepping [2, 2, 2, 2, 2] ++ stepping [5, 5, 5]) servedAndHandled

theorem shutdown_leaves_nobody_behind_waited :
    let M := poolMachine FairSemaphore Nat (.manager 1 1 "pool")
    ∃ s' : Pool FairSemaphore Nat, M.step shutNextToEachOther (.run .step 5) = some s' ∧
      s'.At 5 (.shutdown ⟨0, .graceful, false, true, none, .returned⟩) ∧
      (∀ i d, s'.At i (.loop d) → d.pc = .exited) ∧
      [⟨0, "pool", ∅, .success⟩] <:+ s'.shared.notifier.handed 1 := by
  intro M
  let ok (s : Pool FairSemaphore Nat) (e : PoolEvent Nat) : Prop :=
    (waitsForAll 5 s e && sparesWorker s e) = true
  have hserved : M.Reachable ok servedAndHandled := Machine.steps_after _ _ _ _
  have hshut : M.Steps ok servedAndHandled shutNextToEachOther := Machine.steps_after _ _ _ _
  have hcovers : ∀ s e, ok s e → waitsForAll 5 s e = true :=
    fun s e h => (Bool.and_eq_true_iff.mp h).1
  have hspares : ∀ s e, ok s e → sparesWorker s e = true :=
    fun s e h => (Bool.and_eq_true_iff.mp h).2
  obtain ⟨s', hstep⟩ : ∃ s', M.step shutNextToEachOther (.run .step 5) = some s' := ⟨_, rfl⟩
  have hwell := worker_well (((hserved.trans hshut).mono hspares).tail rfl hstep)
  cases hstep
  have hlaw := shutdown_leaves_nobody_behind FairSemaphore Nat (.manager 1 1 "pool") 5
    servedAndHandled shutNextToEachOther _ (.run .step 5)
    ⟨0, .graceful, false, true, none, .dropSelf .done⟩
    ⟨0, .graceful, false, true, none, .returned⟩ (hserved.mono hcovers) (hshut.mono hcovers)
    rfl rfl rfl nofun rfl rfl
  exact ⟨_, rfl, rfl, hlaw.1, (hlaw.2.2 hwell).2.2 1 (by decide)⟩

/-- One call has taken the join handle of the dispatcher; the other one, which finds it
taken, returns at once. -/
def returnedAhead : Pool FairSemaphore Nat :=
  let M := poolMachine FairSemaphore Nat (.manager 1 1 "pool")
  M.after untimed
    (.call (.clone 0) :: .call (.shutdown 0 .graceful) :: stepping [1, 1, 1, 1, 1, 1] ++
      .call (.shutdown 1 .graceful) :: stepping [2, 2, 2, 2, 2, 2, 2, 2, 2]) M.init

/-- The dispatcher has not even seen the token. -/
theorem shutdown_returns_ahead_of_dispatcher :
    (poolMachine FairSemaphore Nat (.manager 1 1 "pool")).Reachable
        (fun s e => untimed s e = true) returnedAhead ∧
      returnedAhead.At 2 (.shutdown ⟨1, .graceful, true, true, none, .returned⟩) ∧
      returnedAhead.At 0 (.loop ⟨0, .top, false⟩) :=
  ⟨Machine.steps_after _ _ _ _, rfl, rfl⟩

end FuturesOrchestra
