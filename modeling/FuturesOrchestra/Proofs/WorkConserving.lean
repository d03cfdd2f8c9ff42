import FuturesOrchestra.Proofs.DispatchOrder
import FuturesOrchestra.Proofs.Progress

/-!
# The relaxed pool conserves work

A dispatcher of the relaxed pool that waits on its lane holds nothing: no permit, and
no task. So while a permit is free, whoever is next to get it goes on by itself: the
dispatcher that has waited longest for a permit, or, when nobody waits, any dispatcher
with a task in its hand or in its lane.
-/

namespace FuturesOrchestra

open Interleaving Semaphore

variable {σ R : Type} {cfg : PoolConfig} {pid t : Nat} {sh sh' : Shared σ R}
  {sp : Option (Proc R)} {d d' : DispatcherLoop}

/-! ## Program points of the relaxed pool -/

/-- The loop is at a program point of the relaxed pool: it has a permit only for a task. -/
def LoopPc.relaxed : LoopPc → Bool
  | .acquire hand | .acquireToken hand | .recheck hand => hand.isSome
  | .recv p | .recvToken p | .precheck p _ | .cancelSend p _ | .cancelLookup p _
  | .cancelNotify p _ | .cancelDrop p _ => !p
  | .guard _ => false
  | _ => true

/-- The loop waits on its lane. -/
def LoopPc.parked : LoopPc → Bool
  | .recv _ | .recvToken _ => true
  | _ => false

/-- The loop waits for a permit. -/
def LoopPc.awaits : LoopPc → Bool
  | .acquire _ | .acquireToken _ => true
  | _ => false

/-- The steps of the loop until it takes out a task, takes a permit or spawns. -/
def LoopPc.way : LoopPc → Nat
  | .acquire _ | .recv _ | .spawn .. => 0
  | .acquireToken _ | .top | .recvToken _ | .lookup .. => 1
  | .insert _ | .cancelDrop .. => 2
  | .insertCount _ | .cancelNotify .. => 3
  | .recheck _ | .cancelLookup .. => 4
  | .cancelSend .. => 5
  | .precheck .. => 6
  | _ => 0

theorem LoopPc.permits_of_parked {pc : LoopPc} (h : pc.relaxed = true)
    (hparked : pc.parked = true) : pc.permits = 0 := by
  cases pc with
  | recv permit | recvToken permit =>
    obtain rfl : permit = false := by simpa [relaxed] using h
    rfl
  | _ => cases hparked

/-- No dispatcher holds a cancelled task whose destructor panics. -/
def harmlessLoops (s : Pool σ R) : Bool :=
  s.procs.all fun p => match p with
    | .loop d => d.harmless s.shared
    | _ => true

theorem harmless_of_loops {s : Pool σ R} (h : harmlessLoops s = true) (hd : s.At pid (.loop d)) :
    d.harmless s.shared = true :=
  List.all_eq_true.mp h _ (List.mem_of_getElem? hd)

theorem DispatcherLoop.not_struck (h : d.harmless sh = true) : d.struck sh = false := by
  obtain ⟨lane, pc, panicked⟩ := d
  cases pc with
  | cancelDrop permit t => simpa [harmless, LoopPc.discards, struck] using h
  | _ => rfl

theorem spared_of_loops {s : Pool σ R} (h : harmlessLoops s = true) (hd : s.At pid (.loop d))
    (hstruck : d.struck s.shared = true) : s.shared.token = true := by
  rw [DispatcherLoop.not_struck (harmless_of_loops h hd)] at hstruck
  cases hstruck

variable [Semaphore σ]

theorem LoopStep.relaxed (hrlxd : cfg.kind = .rlxd) (h : LoopStep cfg pid sh d sh' d' sp)
    (hd : d.pc.relaxed = true) : d'.pc.relaxed = true := by
  cases h <;> simp_all [LoopPc.relaxed]

/-! ## Who waits for a permit -/

/-- The gate next to the loop of process `pid`: it waits there only as it should. -/
theorem LoopStep.gate_own (h : LoopStep cfg pid sh d sh' d' sp)
    (hnodup : (waiters sh.concurrencyGate).Nodup)
    (hd : pid ∈ waiters sh.concurrencyGate → d.pc.awaits = true) :
    (waiters sh'.concurrencyGate).Nodup ∧
      (pid ∈ waiters sh'.concurrencyGate → d'.pc.awaits = true) := by
  cases h with
  | @acquired hand gate hpc hgate =>
    have htaken := (pollAcquire_taken pid sh.concurrencyGate (by rw [hgate])).2
    rw [hgate] at htaken
    rw [htaken]
    exact ⟨hnodup.erase _, fun hmem => absurd hmem hnodup.not_mem_erase⟩
  | @pending hand gate hpc hgate =>
    have hpending := (pollAcquire_pending pid sh.concurrencyGate (by rw [hgate])).2
    rw [hgate] at hpending
    rw [hpending]
    refine ⟨?_, fun _ => rfl⟩
    split
    · exact hnodup
    · next hnew =>
      exact List.nodup_append'.mpr ⟨hnodup, List.nodup_singleton _, by simpa using hnew⟩
  | acquireStop =>
    rw [waiters_dropAcquire]
    exact ⟨hnodup.erase _, fun hmem => absurd hmem hnodup.not_mem_erase⟩
  | acquireAgain => exact ⟨hnodup, fun _ => rfl⟩
  | _ =>
    refine ⟨by simpa using hnodup, fun hmem => ?_⟩
    have hawaits := hd (by simpa using hmem)
    simp_all [LoopPc.awaits]

/-- The gate of the permits and those who wait there. -/
structure GateQueue (s : Pool σ R) : Prop where
  nodup : (waiters s.shared.concurrencyGate).Nodup
  awaits : ∀ w ∈ waiters s.shared.concurrencyGate, ∃ d, s.At w (.loop d) ∧ d.pc.awaits = true

section Runs

variable {ok : Pool σ R → PoolEvent R → Prop} {s : Pool σ R}

theorem gate_queue (h : (poolMachine σ R cfg).Reachable ok s) : GateQueue s := by
  refine Pool.induct (I := GateQueue) .refl ?_ ?_ h ?_
  · intro s b pid p sh p' sp _ hs _ hp hstep
    have hother {w : Nat} (hne : w ≠ pid) (hold : w ∈ waiters s.shared.concurrencyGate) :
        ∃ d, (s.update pid sh p' sp).At w (.loop d) ∧ d.pc.awaits = true := by
      obtain ⟨d, hd, hawaits⟩ := hs.awaits w hold
      exact ⟨d, Threads.update_other hne hd, hawaits⟩
    have hkept (hgate : waiters sh.concurrencyGate = waiters s.shared.concurrencyGate)
        (hloop : ∀ d, p ≠ .loop d) : GateQueue (s.update pid sh p' sp) := by
      refine ⟨by rw [Threads.update_shared, hgate]; exact hs.nodup, fun w hw => ?_⟩
      rw [Threads.update_shared, hgate] at hw
      refine hother ?_ hw
      rintro rfl
      obtain ⟨d, hd, -⟩ := hs.awaits w hw
      exact hloop d (Option.some.inj (hp.symm.trans hd))
    cases hstep with
    | submit hstep =>
      cases hstep with
      | @acquired t gate _ _ hgate =>
        obtain ⟨-, hnone, hnone'⟩ := tryAcquire_taken _ _ hgate
        exact hkept (hnone'.trans hnone.symm) (by rintro d ⟨⟩)
      | _ => exact hkept rfl (by rintro d ⟨⟩)
    | @loop d _ d' _ hstep =>
      have hself (hmem : pid ∈ waiters s.shared.concurrencyGate) : d.pc.awaits = true := by
        obtain ⟨d₁, hd₁, hawaits⟩ := hs.awaits pid hmem
        cases hp.symm.trans hd₁
        exact hawaits
      obtain ⟨hnodup, hown⟩ := hstep.gate_own hs.nodup hself
      refine ⟨hnodup, fun w hw => ?_⟩
      rw [Threads.update_shared] at hw
      by_cases hne : w = pid
      · subst hne
        exact ⟨d', Threads.update_self hp, hown hw⟩
      · exact hother hne (hstep.gate_waiters hne hw)
    | wrapper hstep =>
      refine hkept ?_ (by rintro d ⟨⟩)
      cases hstep <;> simp
    | bystander hby _ hstep =>
      refine hkept (by rw [hstep.1.concurrencyGate]) ?_
      rintro d rfl
      exact hby.elim
  · intro s c sh sp _ hs _ hquiet _
    refine ⟨by rw [Threads.spawn_shared, hquiet.concurrencyGate]; exact hs.nodup, fun w hw => ?_⟩
    rw [Threads.spawn_shared, hquiet.concurrencyGate] at hw
    obtain ⟨d, hd, hawaits⟩ := hs.awaits w hw
    exact ⟨d, Threads.spawn_other hd, hawaits⟩
  · have hnone : waiters (poolMachine σ R cfg).init.shared.concurrencyGate = [] := waiters_new _
    refine ⟨by rw [hnone]; exact List.nodup_nil, fun w hw => ?_⟩
    rw [hnone] at hw
    cases hw

end Runs

/-! ## What a dispatcher does by itself -/

/-- A step of dispatcher `pid` takes a task out of its lane, takes the permit for the task
in its hand, or spawns it. -/
inductive Brings (pid : Nat) (s s' : Pool σ R) : Prop
  | dequeued {d d' : DispatcherLoop} {u : Nat} (hd : s.At pid (.loop d)) (hpc : d.pc = .recv false)
      (hd' : s'.At pid (.loop d')) (hpc' : d'.pc = .precheck false u)
  | permitted {d d' : DispatcherLoop} {u : Nat} (hd : s.At pid (.loop d))
      (hpc : d.pc = .acquire (some u)) (hd' : s'.At pid (.loop d'))
      (hpc' : d'.pc = .recheck (some u))
  | spawned {d : DispatcherLoop} {u slot : Nat} {sender : Bool} (hd : s.At pid (.loop d))
      (hpc : d.pc = .spawn u slot sender)
      (hnew : s'.At s.procs.length (.wrapper ⟨u, slot, sender, .poll⟩))

/-- Task `t` was told that it is cancelled. -/
def Told (t : Nat) (s : Pool σ R) : Prop :=
  (s.shared.tasks t).sender = .used (.error .taskCancelled)

/-- Task `t` is in a lane or in the hand of a dispatcher. -/
def Undispatched (t : Nat) (s : Pool σ R) : Prop :=
  0 < s.shared.queued t ∨ ∃ i d, s.At i (.loop d) ∧ d.pc.task = some t

/-- Left alone, process `pid` brings some task nearer to its start, or tells `t` that it is
cancelled. -/
def Serves (cfg : PoolConfig) (pid t : Nat) (s : Pool σ R) : Prop :=
  (poolMachine σ R cfg).LeadsTo (.run .step pid)
    (fun s₁ s₂ => Brings pid s₁ s₂ ∨ Told t s₂) s

/-- Nothing but its own steps is between the loop of process `pid` and task `t`, which is in
its hand or in its lane. -/
structure Ready (pid t : Nat) (sh : Shared σ R) (d : DispatcherLoop) : Prop where
  token : sh.token = false
  relaxed : d.pc.relaxed = true
  serving : d.pc.leaving = false
  harmless : d.harmless sh = true
  shard : ∃ r, sh.shards[d.lane]? = some r
  lane : ∃ l, sh.lanes[d.lane]? = some l ∧ (d.pc.task = some t ∨ t ∈ l.items)
  permit : (pollAcquire pid sh.concurrencyGate).2 = true
  live : (sh.tasks t).sender = .live

/-- What a step of a loop that is ready achieves. -/
inductive Achieves (pid t : Nat) (d : DispatcherLoop) (sh' : Shared σ R) (d' : DispatcherLoop)
    (sp : Option (Proc R)) : Prop
  | dequeued {u : Nat} (hpc : d.pc = .recv false) (hpc' : d'.pc = .precheck false u)
  | permitted {u : Nat} (hpc : d.pc = .acquire (some u)) (hpc' : d'.pc = .recheck (some u))
  | spawned {u slot : Nat} {sender : Bool} (hpc : d.pc = .spawn u slot sender)
      (hsp : sp = some (.wrapper ⟨u, slot, sender, .poll⟩))
  | told (hsender : (sh'.tasks t).sender = .used (.error .taskCancelled))
  | nearer (hready : Ready pid t sh' d') (hlt : d'.pc.way < d.pc.way)

namespace Ready

/-- The loop goes on to another program point. -/
theorem next (hs : Ready pid t sh d) (pc : LoopPc) (htoken : sh'.token = sh.token)
    (hlanes : sh'.lanes = sh.lanes) (hshards : sh'.shards.length = sh.shards.length)
    (hgate : sh'.concurrencyGate = sh.concurrencyGate)
    (hsender : (sh'.tasks t).sender = (sh.tasks t).sender) (hrelaxed : pc.relaxed = true)
    (hserving : pc.leaving = false) (hharmless : (d.goto pc).harmless sh' = true)
    (htask : d.pc.task = some t → pc.task = some t) : Ready pid t sh' (d.goto pc) where
  token := htoken.trans hs.token
  relaxed := hrelaxed
  serving := hserving
  harmless := hharmless
  shard := by
    obtain ⟨r, hr⟩ := hs.shard
    have hlt : d.lane < sh'.shards.length := hshards ▸ (List.getElem?_eq_some_iff.mp hr).1
    exact ⟨_, List.getElem?_eq_getElem hlt⟩
  lane := by
    obtain ⟨l, hl, ht⟩ := hs.lane
    exact ⟨l, by rw [DispatcherLoop.goto_lane, hlanes]; exact hl, ht.imp htask id⟩
  permit := by rw [hgate]; exact hs.permit
  live := hsender.trans hs.live

/-- The loop goes on and leaves the state as it is. -/
theorem goto (hs : Ready pid t sh d) (pc : LoopPc) (hrelaxed : pc.relaxed = true)
    (hserving : pc.leaving = false) (hharmless : (d.goto pc).harmless sh = true)
    (htask : d.pc.task = some t → pc.task = some t) : Ready pid t sh (d.goto pc) :=
  hs.next pc rfl rfl rfl rfl rfl hrelaxed hserving hharmless htask

/-- A ready loop that discards a cancelled task comes to the end of that. -/
theorem preCancelled (cfg : PoolConfig) (hs : Ready pid t sh d) {v : Nat}
    (hv : d.pc.discards = some v) : ∃ sh' d' sp,
    d.preCancelled cfg sh = some (sh', d', sp) ∧ Achieves pid t d sh' d' sp := by
  have hrelaxed := hs.relaxed
  have hharmless := hs.harmless
  obtain ⟨lane, pc, panicked⟩ := d
  cases pc with
  | cancelSend permit u =>
    obtain rfl : permit = false := by simpa [LoopPc.relaxed] using hrelaxed
    refine ⟨_, _, none, rfl, ?_⟩
    by_cases hu : t = u
    · subst hu
      refine .told ?_
      simp [Task.send, hs.live]
    · refine .nearer (hs.next (.cancelLookup false u) rfl rfl rfl rfl ?_ rfl rfl ?_ ?_) ?_
      · simp [hu]
      · simpa [DispatcherLoop.harmless, LoopPc.discards, Task.send_future] using hharmless
      · exact fun h => absurd (Option.some.inj h).symm hu
      · simp [LoopPc.way]
  | cancelLookup permit u =>
    obtain rfl : permit = false := by simpa [LoopPc.relaxed] using hrelaxed
    cases hfound : sh.notifier.lookup.2 with
    | true =>
      refine ⟨sh.lookedUp, _, none, ?_, .nearer (hs.next (.cancelNotify false u) rfl rfl rfl rfl rfl
        rfl rfl hharmless (by rintro ⟨⟩)) (by simp [LoopPc.way])⟩
      have hlookup : sh.lookupSender = (sh.lookedUp, true) := by rw [← hfound]; rfl
      simp only [DispatcherLoop.preCancelled, hlookup]
      rfl
    | false =>
      refine ⟨sh.lookedUp, _, none, ?_, .nearer (hs.next (.cancelDrop false u) rfl rfl rfl rfl rfl
        rfl rfl hharmless (by rintro ⟨⟩)) (by simp [LoopPc.way])⟩
      have hlookup : sh.lookupSender = (sh.lookedUp, false) := by rw [← hfound]; rfl
      simp only [DispatcherLoop.preCancelled, hlookup]
      rfl
  | cancelNotify permit u =>
    obtain rfl : permit = false := by simpa [LoopPc.relaxed] using hrelaxed
    exact ⟨_, _, none, rfl, .nearer (hs.next (.cancelDrop false u) rfl rfl rfl rfl rfl rfl rfl
      hharmless (by rintro ⟨⟩)) (by simp [LoopPc.way])⟩
  | cancelDrop permit u =>
    obtain rfl : permit = false := by simpa [LoopPc.relaxed] using hrelaxed
    have hdrop : (sh.tasks u).future.dropPanics = false := by
      simpa [DispatcherLoop.harmless, LoopPc.discards] using hharmless
    refine ⟨_, _, none, ?_, .nearer (hs.goto .top rfl rfl rfl (by rintro ⟨⟩))
      (by simp [LoopPc.way])⟩
    simp only [DispatcherLoop.preCancelled, hdrop]
    rfl
  | _ => cases hv

/-- A ready loop can take a step: it does what it is there for, or gets nearer to it. -/
theorem step (cfg : PoolConfig) (hs : Ready pid t sh d) : ∃ sh' d' sp,
    FuturePoolManagerRlxd.runWorkerLoop cfg pid sh d = some (sh', d', sp) ∧
      Achieves pid t d sh' d' sp := by
  have htoken := hs.token
  have hrelaxed := hs.relaxed
  have hharmless := hs.harmless
  obtain ⟨l, hl, ht⟩ := hs.lane
  obtain ⟨r, hr⟩ := hs.shard
  obtain ⟨lane, pc, panicked⟩ := d
  cases pc with
  | top =>
    refine ⟨_, _, none, ?_, .nearer (hs.goto (.recv false) rfl rfl rfl (by rintro ⟨⟩)) Nat.one_pos⟩
    simp only [FuturePoolManagerRlxd.runWorkerLoop, htoken]
    rfl
  | recvToken permit =>
    obtain rfl : permit = false := by simpa [LoopPc.relaxed] using hrelaxed
    refine ⟨_, _, none, ?_, .nearer (hs.goto (.recv false) rfl rfl rfl (by rintro ⟨⟩)) Nat.one_pos⟩
    simp only [FuturePoolManagerRlxd.runWorkerLoop, htoken]
    rfl
  | recv permit =>
    obtain rfl : permit = false := by simpa [LoopPc.relaxed] using hrelaxed
    obtain ⟨items, receiver, done⟩ := l
    cases items with
    | nil => rcases ht with ht | ht <;> cases ht
    | cons u items =>
      refine ⟨(sh.setLane lane ⟨items, receiver, done⟩).releaseSlot,
        ⟨lane, .precheck false u, panicked⟩, none, ?_, .dequeued rfl rfl⟩
      simp only [FuturePoolManagerRlxd.runWorkerLoop, hl, htoken]
      rfl
  | precheck permit u =>
    obtain rfl : permit = false := by simpa [LoopPc.relaxed] using hrelaxed
    cases hcancelled : sh.isCancelled u with
    | true =>
      have hdrop : (sh.tasks u).future.dropPanics = false := by
        simpa [DispatcherLoop.harmless, LoopPc.discards, Shared.perilous, hcancelled]
          using hharmless
      refine ⟨_, _, none, ?_, .nearer (hs.goto (.cancelSend false u) rfl rfl ?_ id)
        (by simp [LoopPc.way])⟩
      · simp only [FuturePoolManagerRlxd.runWorkerLoop, hcancelled]
        rfl
      · simp [DispatcherLoop.harmless, LoopPc.discards, hdrop]
    | false =>
      refine ⟨_, _, none, ?_, .nearer (hs.goto (.acquire (some u)) rfl rfl rfl id)
        (by simp [LoopPc.way])⟩
      simp only [FuturePoolManagerRlxd.runWorkerLoop, hcancelled]
      rfl
  | acquire hand =>
    obtain ⟨u, rfl⟩ := Option.isSome_iff_exists.mp hrelaxed
    refine ⟨{ sh with concurrencyGate := (pollAcquire pid sh.concurrencyGate).1 },
      ⟨lane, .recheck (some u), panicked⟩, none, ?_, .permitted rfl rfl⟩
    simp only [FuturePoolManagerRlxd.runWorkerLoop, hs.permit]
    rfl
  | acquireToken hand =>
    obtain ⟨u, rfl⟩ := Option.isSome_iff_exists.mp hrelaxed
    refine ⟨_, _, none, ?_, .nearer (hs.goto (.acquire (some u)) rfl rfl rfl id) Nat.one_pos⟩
    simp only [FuturePoolManagerRlxd.runWorkerLoop, htoken]
    rfl
  | recheck hand =>
    obtain ⟨u, rfl⟩ := Option.isSome_iff_exists.mp hrelaxed
    refine ⟨_, _, none, ?_, .nearer (hs.goto (.insertCount u) rfl rfl rfl id)
      (by simp [LoopPc.way])⟩
    simp only [FuturePoolManagerRlxd.runWorkerLoop, htoken]
    rfl
  | insertCount u =>
    refine ⟨sh.setShard lane r.count, _, none, ?_, .nearer (hs.next (.insert u) rfl rfl
      List.length_set rfl rfl rfl rfl rfl id) (by simp [LoopPc.way])⟩
    simp only [FuturePoolManagerRlxd.runWorkerLoop, hr]
  | insert u =>
    refine ⟨sh.setShard lane (r.store sh.isFinished u), _, none, ?_, .nearer
      (hs.next (.lookup u lane) rfl rfl List.length_set rfl rfl rfl rfl rfl id)
      (by simp [LoopPc.way])⟩
    simp only [FuturePoolManagerRlxd.runWorkerLoop, hr]
  | lookup u slot =>
    exact ⟨sh.lookedUp, _, none, rfl, .nearer (hs.next (.spawn u slot sh.notifier.lookup.2)
      rfl rfl rfl rfl rfl rfl rfl rfl id) Nat.one_pos⟩
  | spawn u slot sender =>
    exact ⟨sh, _, _, rfl, .spawned rfl rfl⟩
  | cancelSend | cancelLookup | cancelNotify | cancelDrop => exact hs.preCancelled cfg rfl
  | guard u => cases hrelaxed
  | exit | drain | exited => cases hs.serving

end Ready

/-! ## Whoever is next goes on -/

section Serving

variable {ok : Pool σ R → PoolEvent R → Prop} {s : Pool σ R} {i : Nat}

/-- A step of the loop of process `pid` in the pool. -/
theorem loop_run (hrlxd : cfg.kind = .rlxd) (hd : s.At pid (.loop d))
    (hrun : FuturePoolManagerRlxd.runWorkerLoop cfg pid s.shared d = some (sh', d', sp)) :
    (poolMachine σ R cfg).step s (.run .step pid) = some (s.update pid sh' (.loop d') sp) := by
  refine Program.step_of_run hd ?_
  show (loopStep cfg pid s.shared d).toProc .loop = _
  unfold loopStep
  rw [hrlxd]
  show (FuturePoolManagerRlxd.runWorkerLoop cfg pid s.shared d).toProc .loop = _
  rw [hrun]
  rfl

theorem serves_of_ready (hrlxd : cfg.kind = .rlxd) (hd : s.At pid (.loop d))
    (hs : Ready pid t s.shared d) : Serves cfg pid t s := by
  refine Machine.LeadsTo.of_rank (n := d.pc.way)
    (I := fun n s => ∃ d, s.At pid (.loop d) ∧ Ready pid t s.shared d ∧ d.pc.way = n)
    ?_ ⟨d, hd, hs, rfl⟩
  rintro n s ⟨d, hd, hs, rfl⟩
  obtain ⟨sh', d', sp, hrun, hachieves⟩ := hs.step cfg
  refine ⟨_, loop_run hrlxd hd hrun, ?_⟩
  have hself : (s.update pid sh' (.loop d') sp).At pid (.loop d') := Threads.update_self hd
  cases hachieves with
  | dequeued hpc hpc' => exact .inl (.inl (.dequeued hd hpc hself hpc'))
  | permitted hpc hpc' => exact .inl (.inl (.permitted hd hpc hself hpc'))
  | spawned hpc hsp =>
    subst hsp
    exact .inl (.inl (.spawned hd hpc (Threads.update_new _)))
  | told hsender => exact .inl (.inr hsender)
  | nearer hready hlt => exact .inr ⟨_, hlt, d', hself, hready, rfl⟩

/-- The dispatcher that has waited longest gets the permit. -/
theorem serves_of_head (hrlxd : cfg.kind = .rlxd) (hd : s.At pid (.loop d))
    (hrelaxed : d.pc.relaxed = true) (hawaits : d.pc.awaits = true)
    (htoken : s.shared.token = false)
    (hpermit : (pollAcquire pid s.shared.concurrencyGate).2 = true) : Serves cfg pid t s := by
  have hacquire {s : Pool σ R} {lane u : Nat} {panicked : Bool}
      (hd : s.At pid (.loop ⟨lane, .acquire (some u), panicked⟩))
      (hpermit : (pollAcquire pid s.shared.concurrencyGate).2 = true) : Serves cfg pid t s := by
    have hrun : FuturePoolManagerRlxd.runWorkerLoop cfg pid s.shared
        ⟨lane, .acquire (some u), panicked⟩ =
          some ({ s.shared with concurrencyGate := (pollAcquire pid s.shared.concurrencyGate).1 },
            ⟨lane, .recheck (some u), panicked⟩, none) := by
      simp only [FuturePoolManagerRlxd.runWorkerLoop, hpermit]
      rfl
    exact .now (loop_run hrlxd hd hrun) (.inl (.permitted hd rfl (Threads.update_self hd) rfl))
  obtain ⟨lane, pc, panicked⟩ := d
  cases pc with
  | acquire hand =>
    obtain ⟨u, rfl⟩ := Option.isSome_iff_exists.mp hrelaxed
    exact hacquire hd hpermit
  | acquireToken hand =>
    obtain ⟨u, rfl⟩ := Option.isSome_iff_exists.mp hrelaxed
    have hrun : FuturePoolManagerRlxd.runWorkerLoop cfg pid s.shared
        ⟨lane, .acquireToken (some u), panicked⟩ =
          some (s.shared, ⟨lane, .acquire (some u), panicked⟩, none) := by
      simp only [FuturePoolManagerRlxd.runWorkerLoop, htoken]
      rfl
    exact .later (loop_run hrlxd hd hrun) (hacquire (Threads.update_self hd) hpermit)
  | _ => cases hawaits

theorem loop_relaxed (hrlxd : cfg.kind = .rlxd) (h : (poolMachine σ R cfg).Reachable ok s)
    (hd : s.At pid (.loop d)) : d.pc.relaxed = true :=
  loop_point (P := fun pc => pc.relaxed = true) rfl (fun hstep => hstep.relaxed hrlxd) h hd

theorem Undispatched.lane (h : (poolMachine σ R cfg).Reachable ok s) (ht : Undispatched t s) :
    ∃ i d l, s.At i (.loop d) ∧ s.shared.lanes[i]? = some l ∧
      (d.pc.task = some t ∨ t ∈ l.items) := by
  rcases ht with hqueued | ⟨i, d, hd, htask⟩
  · obtain ⟨i, l, hi, ht⟩ := Shared.queued_pos.mp hqueued
    have hlt : i < cfg.lanes := (dispatchers h).lanes ▸ (List.getElem?_eq_some_iff.mp hi).1
    obtain ⟨d, hd⟩ := (dispatchers h).present i hlt
    exact ⟨i, d, l, hd, hi, .inr ht⟩
  · obtain ⟨l, hl, -⟩ := (dispatchers h).agrees i d hd
    exact ⟨i, d, l, hd, hl, .inl htask⟩

theorem ready_of_loop (hrlxd : cfg.kind = .rlxd)
    (h : (poolMachine σ R cfg).Reachable (fun s _ => harmlessLoops s = true) s)
    (hharmless : harmlessLoops s = true) (htoken : s.shared.token = false)
    (hd : s.At i (.loop d)) {l : Lane} (hl : s.shared.lanes[i]? = some l)
    (ht : d.pc.task = some t ∨ t ∈ l.items)
    (hpermit : (pollAcquire i s.shared.concurrencyGate).2 = true) : Ready i t s.shared d := by
  have hlane := (dispatchers h).lane i d hd
  have hshards : s.shared.shards.length = cfg.lanes := by
    rw [(Shared.Evolves.steps h).shards]
    show (Shared.new cfg : Shared σ R).shards.length = cfg.lanes
    simp [Shared.new, hrlxd]
  have hlt : d.lane < s.shared.shards.length := by
    rw [hlane, hshards, ← (dispatchers h).lanes]
    exact (List.getElem?_eq_some_iff.mp hl).1
  refine ⟨htoken, loop_relaxed hrlxd h hd, ?_, harmless_of_loops hharmless hd,
    ⟨_, List.getElem?_eq_getElem hlt⟩, ⟨l, hlane.symm ▸ hl, ht⟩, hpermit, ?_⟩
  · -- a loop that leaves before shutdown has nothing in front of it
    rw [← Bool.not_eq_true]
    intro hleaving
    rcases leaving_shut (fun hok hd hstruck => spared_of_loops hok hd hstruck) h hd hl hleaving
      with hshut | ⟨-, hnone⟩
    · rw [htoken] at hshut
      cases hshut
    · obtain ⟨hpending, hitems⟩ := List.append_eq_nil_iff.mp hnone
      rcases ht with ht | ht
      · obtain ⟨lane, pc, panicked⟩ := d
        cases pc with
        | exit permit hand =>
          obtain rfl : hand = some t := ht
          cases hpending
        | drain | exited => cases ht
        | _ => cases hleaving
      · rw [hitems] at ht
        cases ht
  · rcases ht with ht | ht
    · exact live_of_owns h hd ht
    · exact live_of_ahead h hd hl (List.mem_append_right _ ht)

theorem serves (hrlxd : cfg.kind = .rlxd)
    (h : (poolMachine σ R cfg).Reachable (fun s _ => harmlessLoops s = true) s)
    (hharmless : harmlessLoops s = true) (htoken : s.shared.token = false)
    (hfree : 0 < permits s.shared.concurrencyGate) (ht : Undispatched t s) :
    ∃ pid, Serves cfg pid t s := by
  have hqueue := gate_queue h
  cases hwaiters : waiters s.shared.concurrencyGate with
  | nil =>
    obtain ⟨i, d, l, hd, hl, ht⟩ := ht.lane h
    have hpermit : (pollAcquire i s.shared.concurrencyGate).2 = true :=
      (pollAcquire_ready i _).mpr ⟨hfree, by rw [hwaiters]; rfl⟩
    exact ⟨i, serves_of_ready hrlxd hd (ready_of_loop hrlxd h hharmless htoken hd hl ht hpermit)⟩
  | cons w rest =>
    obtain ⟨d, hd, hawaits⟩ := hqueue.awaits w (hwaiters ▸ List.mem_cons_self)
    have hpermit : (pollAcquire w s.shared.concurrencyGate).2 = true :=
      (pollAcquire_ready w _).mpr ⟨hfree, by rw [hwaiters]; rfl⟩
    exact ⟨w, serves_of_head hrlxd hd (loop_relaxed hrlxd h hd) hawaits htoken hpermit⟩

theorem LoopStep.untold (h : LoopStep cfg pid sh d sh' d' sp) (hleaving : d.pc.leaving = true)
    (htold : (sh'.tasks t).sender = .used (.error .taskCancelled)) :
    (sh.tasks t).sender = .used (.error .taskCancelled) := by
  have hdrop {sh' : Shared σ R} {u : Nat} (htasks : sh'.tasks = sh.tasks)
      (htold : ((sh'.modifyTask u Task.dropSender).tasks t).sender =
        .used (.error .taskCancelled)) : (sh.tasks t).sender = .used (.error .taskCancelled) := by
    rw [Shared.modifyTask_tasks, htasks] at htold
    split at htold
    · next heq =>
      unfold Task.dropSender at htold
      split at htold
      · cases htold
      · exact htold
    · exact htold
  cases h with
  | exitHand | drain => exact hdrop rfl htold
  | exitPermit | exitReceiver | exitLast | drained => exact htold
  | _ => simp_all [LoopPc.leaving]

/-- A dispatcher that leaves starts no task any more. -/
theorem not_serves_of_leaving (hd : s.At pid (.loop d)) (hleaving : d.pc.leaving = true)
    (ht : ¬Told t s) : ¬Serves cfg pid t s := by
  refine Machine.LeadsTo.refute
    (I := fun s => (∃ d, s.At pid (.loop d) ∧ d.pc.leaving = true) ∧ ¬Told t s) ?_ ⟨⟨d, hd, hleaving⟩, ht⟩
  rintro s s' ⟨⟨d, hd, hleaving⟩, ht⟩ hnext
  obtain ⟨p, sh, p', sp, hp, hrun, rfl⟩ := Program.step_run hnext
  cases hd.symm.trans hp
  have hrun : Proc.run cfg .step pid s.shared (.loop d) = some (sh, p', sp) := hrun
  obtain ⟨d', rfl, hstep⟩ : ∃ d', p' = .loop d' ∧ LoopStep cfg pid s.shared d sh d' sp := by
    cases Proc.step_of_run hrun with
    | loop hstep => exact ⟨_, rfl, hstep⟩
    | bystander hby => exact hby.elim
  have ht' : ¬Told t (s.update pid sh (.loop d') sp) :=
    fun htold => ht (hstep.untold hleaving htold)
  refine ⟨?_, ⟨d', Threads.update_self hd, hstep.leaving_kept hleaving⟩, ht'⟩
  rintro ((⟨hd₁, hpc, -, -⟩ | ⟨hd₁, hpc, -, -⟩ | ⟨hd₁, hpc, -⟩) | htold)
  · cases hd.symm.trans hd₁
    rw [hpc] at hleaving
    cases hleaving
  · cases hd.symm.trans hd₁
    rw [hpc] at hleaving
    cases hleaving
  · cases hd.symm.trans hd₁
    rw [hpc] at hleaving
    cases hleaving
  · exact ht' htold

theorem not_serves_of_stuck (h : (poolMachine σ R cfg).step s (.run .step pid) = none) :
    ¬Serves cfg pid t s := by
  rintro (⟨hstep, -⟩ | ⟨hstep, -⟩)
  all_goals
    rw [h] at hstep
    cases hstep

end Serving

/-- The relaxed pool conserves work. In every run a dispatcher that waits on its lane
holds no concurrency permit. In every run in which no dispatcher comes to hold a cancelled
task whose destructor panics, whenever the pool is not shut down, a permit is free and a
task is in a lane or in the hand of a dispatcher, some dispatcher is not held up by
anybody: by its own steps alone it takes a task out of its lane, takes a permit or spawns,
or tells that very task that it is cancelled. -/
theorem relaxed_pool_conserves_work (σ R : Type) [Semaphore σ]
    (concurrencyLimit queueCapacity dispatchers : Nat) (poolName : String) :
    let cfg := PoolConfig.rlxd concurrencyLimit queueCapacity dispatchers poolName
    (∀ s : Pool σ R, (poolMachine σ R cfg).Reachable Machine.anyStep s →
      ∀ i d, s.At i (.loop d) → d.pc.parked = true → d.pc.permits = 0) ∧
    ∀ s : Pool σ R, (poolMachine σ R cfg).Reachable (fun s _ => harmlessLoops s = true) s →
      harmlessLoops s = true → s.shared.token = false → 0 < permits s.shared.concurrencyGate →
      ∀ t, Undispatched t s → ∃ pid, Serves cfg pid t s := by
  intro cfg
  refine ⟨fun s h i d hd hparked => ?_, fun s h hharmless htoken hfree t ht => ?_⟩
  · exact LoopPc.permits_of_parked (loop_relaxed rfl h hd) hparked
  · exact serves rfl h hharmless htoken hfree ht

/-- A task is dispatched directly, another one is queued behind it, and the first ends. -/
def queuedBesideFreePermit : Pool FairSemaphore Nat :=
  let M := poolMachine FairSemaphore Nat (.rlxd 1 2 1 "pool")
  M.after (fun s _ => harmlessLoops s)
    (.call (.submit 0 ∅ (.ready 7)) :: stepping (List.replicate 11 1) ++
      .call (.submit 0 ∅ (.ready 7)) :: stepping (List.replicate 11 3 ++ List.replicate 7 2)) M.init

theorem relaxed_pool_conserves_work_queued :
    queuedBesideFreePermit.shared.concurrencyGate.permits = 1 ∧
      ∃ pid, Serves (.rlxd 1 2 1 "pool") pid 1 queuedBesideFreePermit := by
  have hlaw := (relaxed_pool_conserves_work FairSemaphore Nat 1 2 1 "pool").2 queuedBesideFreePermit
    (Machine.steps_after _ _ _ _) (by decide) rfl (by decide) 1 (.inl (by decide))
  exact ⟨by decide, hlaw⟩

/-- The process is no submit call that has not returned. -/
def Proc.uncalled : Proc R → Bool
  | .submit c => c.pc.over
  | _ => true

/-- A task is dispatched directly. Two more are queued, and the first of them, whose
destructor panics, is cancelled. The dispatcher drops it, and the running task ends. -/
def strandedQueue : Pool FairSemaphore Nat :=
  let M := poolMachine FairSemaphore Nat (.rlxd 1 2 1 "pool")
  M.after (fun _ _ => true)
    (.call (.submit 0 ∅ (.ready 7)) :: stepping (List.replicate 11 1) ++
      .call (.submit 0 ∅ panicsWhenDropped) :: stepping (List.replicate 11 3) ++
      .call (.submit 0 ∅ (.ready 7)) :: stepping (List.replicate 10 4) ++
      .call (.cancel 1) :: stepping (List.replicate 6 0 ++ List.replicate 7 2)) M.init

/-- The permit is free and the last task is in the lane, where the unwinding dispatcher will drop
it. No process comes to start it or to tell it that it is cancelled. -/
theorem unwound_dispatcher_strands_queue :
    (poolMachine FairSemaphore Nat (.rlxd 1 2 1 "pool")).Reachable Machine.anyStep strandedQueue ∧
      strandedQueue.shared.token = false ∧
      strandedQueue.shared.concurrencyGate.permits = 1 ∧
      strandedQueue.shared.lanes = [⟨[2], true, false⟩] ∧
      (strandedQueue.shared.tasks 2).accepted = true ∧
      strandedQueue.shared.isCancelled 2 = false ∧
      (∀ pid c, strandedQueue.At pid (.submit c) → c.pc.over = true) ∧
      ∀ pid, ¬Serves (.rlxd 1 2 1 "pool") pid 2 strandedQueue := by
  refine ⟨(Machine.steps_after _ _ _ _).any, rfl, rfl, rfl, rfl, rfl, ?_, ?_⟩
  · have hreturned : strandedQueue.procs.all Proc.uncalled = true := by decide
    intro pid c hc
    exact List.all_eq_true.mp hreturned _ (List.mem_of_getElem? hc)
  · rintro (- | - | - | - | - | pid)
    · exact not_serves_of_leaving (d := ⟨0, .exit false none, true⟩) rfl rfl
        (by rintro ⟨⟩)
    all_goals exact not_serves_of_stuck rfl

end FuturesOrchestra
