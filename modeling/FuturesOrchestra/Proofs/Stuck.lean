import FuturesOrchestra.Proofs.Progress
import FuturesOrchestra.Proofs.Closing

/-!
# No process gets stuck

A process of a pool that cannot take its next step has ended, or waits at one of
the three places where the source waits for another task, or the destructor of
its task panics while it unwinds, which aborts the program. In particular no lane
and no shard is looked up out of bounds.
-/

namespace FuturesOrchestra

open Interleaving

variable {σ R : Type} {cfg : PoolConfig} {pid t : Nat} {sh sh' : Shared σ R}
  {sp : Option (Proc R)} {p p' : Proc R}

/-- A configuration that one of the two constructors has made. -/
def PoolConfig.Built (cfg : PoolConfig) : Prop :=
  (∃ limit capacity name, cfg = .manager limit capacity name) ∨
    ∃ limit capacity dispatchers name, cfg = .rlxd limit capacity dispatchers name

theorem PoolConfig.Built.lanes_pos (h : cfg.Built) : 0 < cfg.lanes := by
  rcases h with ⟨_, _, _, rfl⟩ | ⟨_, _, dispatchers, _, rfl⟩
  · exact Nat.one_pos
  · exact Nat.lt_of_lt_of_le Nat.one_pos (Nat.le_max_right dispatchers 1)

/-! ## Where a process can stand -/

/-- The points of the fast path belong to the relaxed pool, and the shards and
lanes that are named exist. -/
def SubmitPc.inPlace (cfg : PoolConfig) : SubmitPc → Prop
  | .insertCount _ i | .insert _ i | .lookup _ i | .spawn _ i _ =>
    cfg.kind = .rlxd ∧ i < cfg.lanes
  | .scan .. | .tryAcquire _ | .route _ | .sendRoute _ => cfg.kind = .rlxd
  | .push _ lane => lane < cfg.lanes
  | _ => True

/-- The strict pool holds its permit before it receives, the relaxed pool has
received before it acquires. A loop has panicked only on its way out. -/
def DispatcherLoop.inPlace (cfg : PoolConfig) (d : DispatcherLoop) : Prop :=
  (d.panicked = true → d.pc.leaving = true) ∧
    match d.pc with
    | .acquire hand | .acquireToken hand | .recheck hand => hand.isSome = true ↔ cfg.kind = .rlxd
    | .recv permit | .recvToken permit | .precheck permit _ => permit = true ↔ cfg.kind = .strict
    | .guard _ => cfg.kind = .strict
    | .insertCount _ => cfg.kind = .rlxd
    | .lookup _ slot | .spawn _ slot _ => cfg.kind = .rlxd → slot < cfg.lanes
    | _ => True

/-- The wrapper counts itself out of a shard that exists. -/
def Wrapper.inPlace (cfg : PoolConfig) (w : Wrapper R) : Prop :=
  (cfg.kind = .rlxd → w.slot < cfg.lanes) ∧
    match w.pc with
    | .finish | .release => cfg.kind = .rlxd
    | .remove => cfg.kind = .strict
    | _ => True

def ShutdownPc.inPlace (cfg : PoolConfig) : ShutdownPc → Prop
  | .join handles => ∀ lane ∈ handles, lane < cfg.lanes
  | _ => True

def Proc.inPlace (cfg : PoolConfig) : Proc R → Prop
  | .submit c => c.pc.inPlace cfg
  | .loop d => d.inPlace cfg
  | .wrapper w => w.inPlace cfg
  | .shutdown c => c.pc.inPlace cfg
  | _ => True

/-- The processes stand where they can stand, and the join handles that are still
stored name dispatchers of the pool. -/
structure InPlace (cfg : PoolConfig) (s : Pool σ R) : Prop where
  procs : ∀ pid p, s.At pid p → p.inPlace cfg
  handles : ∀ lane ∈ s.shared.joinHandles, lane < cfg.lanes
  lanes : s.shared.lanes.length = cfg.lanes
  shards : cfg.kind = .rlxd → s.shared.shards.length = cfg.lanes

section Steps

variable [Semaphore σ]

theorem SubmitStep.inPlace {c c' : SubmitCall R} (h : SubmitStep cfg.kind pid sh c sh' c' sp)
    (hpos : 0 < cfg.lanes) (hlanes : sh.lanes.length = cfg.lanes)
    (hshards : cfg.kind = .rlxd → sh.shards.length = cfg.lanes) (hc : c.pc.inPlace cfg) :
    c'.pc.inPlace cfg ∧ sh'.joinHandles = sh.joinHandles ∧
      ∀ w, sp = some (.wrapper w) → w.inPlace cfg := by
  cases h with
  | route hkind hpc =>
    refine ⟨⟨hkind, ?_⟩, rfl, by rintro w ⟨⟩⟩
    rw [hshards hkind]
    exact Nat.mod_lt _ hpos
  | sendRoute hkind hpc =>
    refine ⟨?_, rfl, by rintro w ⟨⟩⟩
    show _ % sh.lanes.length < cfg.lanes
    rw [hlanes]
    exact Nat.mod_lt _ hpos
  | insertCount hkind hpc | insert hkind hpc | lookup hkind hpc =>
    rw [hpc] at hc
    exact ⟨hc, rfl, by rintro w ⟨⟩⟩
  | spawn hkind hpc =>
    rw [hpc] at hc
    refine ⟨trivial, rfl, ?_⟩
    rintro w ⟨⟩
    exact ⟨fun _ => hc.2, trivial⟩
  | selectAcquired hkind hpc => exact ⟨hpos, rfl, by rintro w ⟨⟩⟩
  | createScan hkind | acquired hkind | selectAcquiredRlxd hkind =>
    exact ⟨hkind, rfl, by rintro w ⟨⟩⟩
  | scan hpc | scanEmpty hpc =>
    rw [hpc] at hc
    exact ⟨hc, rfl, by rintro w ⟨⟩⟩
  | _ => exact ⟨trivial, rfl, by rintro w ⟨⟩⟩

theorem LoopStep.inPlace {d d' : DispatcherLoop} (h : LoopStep cfg pid sh d sh' d' sp)
    (hshards : cfg.kind = .rlxd → sh.shards.length = cfg.lanes) (hd : d.inPlace cfg) :
    d'.inPlace cfg ∧ sh'.joinHandles = sh.joinHandles ∧
      ∀ w, sp = some (.wrapper w) → w.inPlace cfg := by
  obtain ⟨hpanicked, hpoint⟩ := hd
  cases h with
  | insertRlxd hkind hpc hshard =>
    have hlane : d.lane < cfg.lanes := hshards hkind ▸ (List.getElem?_eq_some_iff.mp hshard).1
    refine ⟨⟨fun h => ?_, fun _ => hlane⟩, rfl, by rintro w ⟨⟩⟩
    have hleaving := hpanicked h
    rw [hpc] at hleaving
    cases hleaving
  | spawn hpc =>
    rw [hpc] at hpanicked hpoint
    refine ⟨⟨fun h => ?_, trivial⟩, rfl, ?_⟩
    · cases hpanicked h
    · rintro w ⟨⟩
      exact ⟨hpoint, trivial⟩
  | _ => simp_all [DispatcherLoop.inPlace, LoopPc.leaving, DispatcherLoop.leaving]

theorem WrapperStep.inPlace {w w' : Wrapper R} (h : WrapperStep cfg sh w sh' w')
    (hw : w.inPlace cfg) : w'.inPlace cfg ∧ sh'.joinHandles = sh.joinHandles := by
  obtain ⟨hslot, -⟩ := hw
  cases h with
  | close hkind | finish hkind | countOut hkind => exact ⟨⟨hslot, hkind⟩, rfl⟩
  | _ => exact ⟨⟨hslot, trivial⟩, rfl⟩

omit [Semaphore σ] in
theorem ShutdownStep.inPlace {b : Signal} {c c' : ShutdownCall}
    (h : ShutdownStep cfg b sh c sh' c') (hhandles : ∀ lane ∈ sh.joinHandles, lane < cfg.lanes)
    (hc : c.pc.inPlace cfg) :
    c'.pc.inPlace cfg ∧ ∀ lane ∈ sh'.joinHandles, lane < cfg.lanes := by
  cases h with
  | takeHandles hpc => exact ⟨hhandles, by rintro lane ⟨⟩⟩
  | joined hpc | joinTimeout _ hpc =>
    rw [hpc] at hc
    exact ⟨fun lane hlane => hc lane (List.mem_cons_of_mem _ hlane), hhandles⟩
  | dropSelf hpc hdrop =>
    refine ⟨trivial, ?_⟩
    cases hdrop <;> exact hhandles
  | _ => exact ⟨trivial, hhandles⟩

theorem Proc.inPlace_of_run {b : Signal} {s : Pool σ R} (hpos : 0 < cfg.lanes)
    (hs : InPlace cfg s) (hp : s.At pid p)
    (h : Proc.run cfg b pid s.shared p = some (sh', p', sp)) :
    p'.inPlace cfg ∧ (∀ lane ∈ sh'.joinHandles, lane < cfg.lanes) ∧
      ∀ q, sp = some q → q.inPlace cfg := by
  have hbefore := hs.procs pid p hp
  rcases Proc.split_of_run h with ⟨c, c', rfl, rfl, hstep⟩ | ⟨d, d', rfl, rfl, hstep⟩ |
    ⟨w, w', rfl, rfl, hstep, rfl⟩ | hstep
  · obtain ⟨hc, hhandles, hnew⟩ := hstep.inPlace hpos hs.lanes hs.shards hbefore
    refine ⟨hc, hhandles ▸ hs.handles, fun q hq => ?_⟩
    cases hstep <;> cases hq
    exact hnew _ rfl
  · obtain ⟨hd, hhandles, hnew⟩ := hstep.inPlace hs.shards hbefore
    refine ⟨hd, hhandles ▸ hs.handles, fun q hq => ?_⟩
    cases hstep <;> cases hq
    exact hnew _ rfl
  · obtain ⟨hw, hhandles⟩ := hstep.inPlace hbefore
    exact ⟨hw, hhandles ▸ hs.handles, by rintro q ⟨⟩⟩
  · cases hstep with
    | shutdown hstep =>
      obtain ⟨hc, hhandles⟩ := hstep.inPlace hs.handles hbefore
      exact ⟨hc, hhandles, by rintro q ⟨⟩⟩
    | drop hpc hstep =>
      refine ⟨trivial, ?_, by rintro q ⟨⟩⟩
      cases hstep <;> exact hs.handles
    | labelCancel hstep =>
      refine ⟨trivial, ?_, by rintro q ⟨⟩⟩
      cases hstep <;> exact hs.handles
    | addHandler hstep =>
      refine ⟨trivial, ?_, fun q hq => ?_⟩
      · cases hstep <;> exact hs.handles
      · cases hstep <;> cases hq
        trivial
    | notifier hstep =>
      refine ⟨trivial, ?_, by rintro q ⟨⟩⟩
      cases hstep <;> exact hs.handles

theorem in_place {ok : Pool σ R → PoolEvent R → Prop} {s : Pool σ R} (hcfg : cfg.Built)
    (h : (poolMachine σ R cfg).Reachable ok s) : InPlace cfg s := by
  refine Pool.invariant .refl ?_ ?_ h ?_
  · intro s b pid p sh p' sp _ hs _ hp hrun
    obtain ⟨hself, hhandles, hnew⟩ := Proc.inPlace_of_run hcfg.lanes_pos hs hp hrun
    have hevolves := Shared.Evolves.proc (Proc.step_of_run hrun)
    refine ⟨fun qid q hq => ?_, hhandles, hevolves.lanes.trans hs.lanes,
      fun hkind => hevolves.shards.trans (hs.shards hkind)⟩
    rcases Threads.update_getElem? hp hq with ⟨rfl, rfl⟩ | ⟨-, hold⟩ | ⟨-, hstarted⟩
    · exact hself
    · exact hs.procs qid q hold
    · exact hnew q hstarted
  · intro s c sh sp _ hs _ hcall
    have hquiet := (Call.enter_quiet hcall).1
    refine ⟨fun qid q hq => ?_, ?_, ?_, fun hkind => ?_⟩
    · rcases Threads.spawn_getElem? hq with hold | ⟨-, hstarted⟩
      · exact hs.procs qid q hold
      · revert hcall hstarted
        fun_cases Call.enter s.shared c
        all_goals rintro ⟨⟩ ⟨⟩
        all_goals trivial
    · revert hcall
      fun_cases Call.enter s.shared c
      all_goals rintro ⟨⟩
      all_goals exact hs.handles
    · rw [Threads.spawn_shared, hquiet.lanes]
      exact hs.lanes
    · rw [Threads.spawn_shared, hquiet.shards]
      exact hs.shards hkind
  · refine ⟨fun pid p hp => ?_, fun lane hlane => List.mem_range.mp hlane, ?_, fun hkind => ?_⟩
    · obtain ⟨-, rfl⟩ := Pool.init_loop hp
      exact ⟨by rintro ⟨⟩, trivial⟩
    · exact List.length_replicate
    · show (Shared.new cfg : Shared σ R).shards.length = cfg.lanes
      simp [Shared.new, hkind]

end Steps

/-! ## Who can go on -/

/-- The process has come to its end. -/
def Proc.ended : Proc R → Bool
  | .submit c => c.pc.over
  | .loop d => d.pc == .exited
  | .wrapper w => w.pc.over
  | .notifier n => n.pc.over
  | .shutdown c => c.pc == .returned || c.pc == .abandoned
  | .drop c => c.pc == .done
  | .labelCancel c => c.pc == .returned
  | .addHandler c => c.pc == .returned

/-- A `shutdown` call waits for a dispatcher or for the notification worker, or a
registration waits for the write lock of the handler list. -/
def Proc.waits (sh : Shared σ R) : Proc R → Bool
  | .shutdown c =>
    match c.pc with
    | .join (lane :: _) => !(sh.lanes[lane]?).any (·.done)
    | .awaitNotifier => !sh.notifier.workerDone
    | _ => false
  | .addHandler c => c.pc == .push && sh.notifier.reading
  | _ => false

/-- The next thing the unwinding process drops is a future whose destructor panics. -/
def Proc.aborts (sh : Shared σ R) : Proc R → Bool
  | .loop d =>
    d.panicked && match d.pc with
      | .exit false (some t) => (sh.tasks t).future.dropPanics
      | .drain =>
        ((sh.lanes[d.lane]?).bind (·.items.head?)).any fun t => (sh.tasks t).future.dropPanics
      | _ => false
  | .wrapper w =>
    match w.pc with
    | .unwind _ => (sh.tasks w.task).future.dropPanics
    | _ => false
  | _ => false

section Enabled

variable [Semaphore σ]

theorem SubmitCall.isSome_enqueue {c : SubmitCall R} {lane : Nat} (hlane : lane < sh.lanes.length) :
    (c.enqueue sh t lane).isSome = true := by
  obtain ⟨l, hl⟩ : ∃ l, sh.lanes[lane]? = some l := ⟨_, List.getElem?_eq_getElem hlane⟩
  simp only [SubmitCall.enqueue, hl]
  split <;> rfl

theorem FuturePoolManager.isSome_submit {c : SubmitCall R} (hstrict : cfg.kind = .strict)
    (hlanes : sh.lanes.length = cfg.lanes) (hc : c.pc.inPlace cfg) :
    (FuturePoolManager.submit pid sh c).isSome = !c.pc.over := by
  obtain ⟨clone, labels, future, pc, unwound⟩ := c
  cases pc with
  | push t lane => exact SubmitCall.isSome_enqueue (hlanes ▸ hc)
  | checkToken | checkClosed =>
    simp only [FuturePoolManager.submit]
    split <;> rfl
  | sendToken t | sendClosed t | selectToken t =>
    simp only [FuturePoolManager.submit, QueueProducer.send]
    split <;> rfl
  | create | selectAcquire | returned | abandoned => rfl
  | scan | tryAcquire | route | sendRoute => exact absurd (hstrict.symm.trans hc) (by decide)
  | insertCount | insert | lookup | spawn => exact absurd (hstrict.symm.trans hc.1) (by decide)

theorem FuturePoolManagerRlxd.isSome_submitInner {c : SubmitCall R}
    (hlanes : sh.lanes.length = cfg.lanes) (hshards : sh.shards.length = cfg.lanes)
    (hc : c.pc.inPlace cfg) :
    (FuturePoolManagerRlxd.submitInner pid sh c).isSome = !c.pc.over := by
  obtain ⟨clone, labels, future, pc, unwound⟩ := c
  cases pc with
  | push t lane => exact SubmitCall.isSome_enqueue (hlanes ▸ hc)
  | checkToken | checkClosed | tryAcquire | scan =>
    simp only [FuturePoolManagerRlxd.submitInner]
    split <;> rfl
  | sendToken t | sendClosed t | selectToken t =>
    simp only [FuturePoolManagerRlxd.submitInner, RlxdQueueProducer.send]
    split <;> rfl
  | insertCount t i | insert t i =>
    have hi : i < sh.shards.length := hshards ▸ hc.2
    simp [FuturePoolManagerRlxd.submitInner, List.getElem?_eq_getElem hi, SubmitPc.over]
  | _ => rfl

theorem submitStep_isSome (pid : Nat) {c : SubmitCall R} {s : Pool σ R} (hs : InPlace cfg s)
    (hc : c.pc.inPlace cfg) : (submitStep cfg pid s.shared c).isSome = !c.pc.over := by
  unfold submitStep
  cases hkind : cfg.kind with
  | strict => exact FuturePoolManager.isSome_submit hkind hs.lanes hc
  | rlxd => exact FuturePoolManagerRlxd.isSome_submitInner hs.lanes (hs.shards hkind) hc

omit [Semaphore σ] in
theorem DispatcherLoop.isSome_dropTask {d : DispatcherLoop} {pc : LoopPc} :
    (d.dropTask sh t pc).isSome = !(d.panicked && (sh.tasks t).future.dropPanics) := by
  unfold DispatcherLoop.dropTask
  cases (sh.tasks t).future.dropPanics <;> cases d.panicked <;> rfl

theorem DispatcherLoop.isSome_leave {d : DispatcherLoop} {l : Lane}
    (hl : sh.lanes[d.lane]? = some l) (hleaving : d.pc.leaving = true) :
    (d.leave sh).isSome = !((Proc.loop d : Proc R).ended || (Proc.loop d).aborts sh) := by
  obtain ⟨lane, pc, panicked⟩ := d
  obtain ⟨items, receiver, done⟩ := l
  cases pc with
  | exit permit hand =>
    cases permit with
    | true => simp [DispatcherLoop.leave, Proc.ended, Proc.aborts]
    | false =>
      cases hand with
      | some t => exact DispatcherLoop.isSome_dropTask
      | none => simp_all [DispatcherLoop.leave, Proc.ended, Proc.aborts]
  | drain =>
    cases items with
    | nil => simp_all [DispatcherLoop.leave, Proc.ended, Proc.aborts]
    | cons t items =>
      simp only at hl
      simp only [DispatcherLoop.leave, hl, DispatcherLoop.isSome_dropTask, Proc.ended, Proc.aborts,
        Option.bind_some, List.head?_cons, Option.any_some]
      rfl
  | exited => rfl
  | _ => cases hleaving

omit [Semaphore σ] in
/-- A loop on its way drops no task while it unwinds. -/
theorem DispatcherLoop.serving_aborts {d : DispatcherLoop} (sh : Shared σ R) (hd : d.inPlace cfg)
    (hserving : d.pc.leaving = false) :
    d.panicked = false ∧ ((Proc.loop d : Proc R).ended || (Proc.loop d).aborts sh) = false := by
  have hcalm : d.panicked = false := by
    rw [← Bool.not_eq_true]
    intro h
    rw [hd.1 h] at hserving
    cases hserving
  refine ⟨hcalm, ?_⟩
  have hexited : d.pc ≠ .exited := by
    intro h
    rw [h] at hserving
    cases hserving
  simp [Proc.ended, Proc.aborts, hcalm, hexited]

theorem FuturePoolManager.isSome_runWorkerLoop {d : DispatcherLoop} {l : Lane}
    (hstrict : cfg.kind = .strict) (hl : sh.lanes[d.lane]? = some l) (hd : d.inPlace cfg) :
    (FuturePoolManager.runWorkerLoop cfg pid sh d).isSome =
      !((Proc.loop d : Proc R).ended || (Proc.loop d).aborts sh) := by
  cases hleaving : d.pc.leaving with
  | true =>
    have hrun : FuturePoolManager.runWorkerLoop cfg pid sh d = d.leave sh := by
      unfold FuturePoolManager.runWorkerLoop DispatcherLoop.leave
      cases hpc : d.pc with
      | exit | drain | exited => rfl
      | _ => simp [hpc, LoopPc.leaving] at hleaving
    rw [hrun, DispatcherLoop.isSome_leave hl hleaving]
  | false =>
    obtain ⟨hcalm, hgo⟩ := DispatcherLoop.serving_aborts sh hd hleaving
    rw [hgo]
    obtain ⟨lane, pc, panicked⟩ := d
    obtain ⟨items, receiver, done⟩ := l
    obtain ⟨-, hpoint⟩ := hd
    cases pc with
    | acquire hand | acquireToken hand | recheck hand =>
      have hnone : hand = none := by
        simpa [hstrict] using hpoint
      subst hnone
      simp only [FuturePoolManager.runWorkerLoop]
      first | rfl | (split <;> rfl)
    | recv permit =>
      have htrue : permit = true := by simpa [hstrict] using hpoint
      subst htrue
      simp only at hl
      cases items <;> simp [FuturePoolManager.runWorkerLoop, hl]
    | recvToken permit | precheck permit =>
      have htrue : permit = true := by simpa [hstrict] using hpoint
      subst htrue
      rfl
    | guard t =>
      obtain rfl : panicked = false := hcalm
      simp only [FuturePoolManager.runWorkerLoop]
      split
      · rw [DispatcherLoop.isSome_dropTask]
        rfl
      · rfl
    | cancelDrop permit t =>
      simp only [FuturePoolManager.runWorkerLoop, DispatcherLoop.preCancelled]
      split <;> rfl
    | insertCount t => exact absurd (hstrict.symm.trans hpoint) (by decide)
    | exit | drain | exited => cases hleaving
    | _ => rfl

theorem FuturePoolManagerRlxd.isSome_runWorkerLoop {d : DispatcherLoop} {l : Lane}
    (hrlxd : cfg.kind = .rlxd) (hl : sh.lanes[d.lane]? = some l)
    (hlane : d.lane < sh.shards.length) (hd : d.inPlace cfg) :
    (FuturePoolManagerRlxd.runWorkerLoop cfg pid sh d).isSome =
      !((Proc.loop d : Proc R).ended || (Proc.loop d).aborts sh) := by
  cases hleaving : d.pc.leaving with
  | true =>
    have hrun : FuturePoolManagerRlxd.runWorkerLoop cfg pid sh d = d.leave sh := by
      unfold FuturePoolManagerRlxd.runWorkerLoop DispatcherLoop.leave
      cases hpc : d.pc with
      | exit | drain | exited => rfl
      | _ => simp [hpc, LoopPc.leaving] at hleaving
    rw [hrun, DispatcherLoop.isSome_leave hl hleaving]
  | false =>
    obtain ⟨hcalm, hgo⟩ := DispatcherLoop.serving_aborts sh hd hleaving
    rw [hgo]
    obtain ⟨lane, pc, panicked⟩ := d
    obtain ⟨items, receiver, done⟩ := l
    obtain ⟨-, hpoint⟩ := hd
    have hr := List.getElem?_eq_getElem hlane
    cases pc with
    | acquire hand | acquireToken hand | recheck hand =>
      obtain ⟨t, rfl⟩ : ∃ t, hand = some t := Option.isSome_iff_exists.mp (hpoint.mpr hrlxd)
      simp only [FuturePoolManagerRlxd.runWorkerLoop]
      first | rfl | (split <;> rfl)
    | recv permit =>
      obtain rfl : panicked = false := hcalm
      have hfalse : permit = false := by simpa [hrlxd] using hpoint
      subst hfalse
      simp only at hl
      cases items with
      | nil => simp [FuturePoolManagerRlxd.runWorkerLoop, hl]
      | cons t items =>
        simp only [FuturePoolManagerRlxd.runWorkerLoop, hl]
        split
        · rw [DispatcherLoop.isSome_dropTask]
          rfl
        · rfl
    | recvToken permit | precheck permit =>
      have hfalse : permit = false := by simpa [hrlxd] using hpoint
      subst hfalse
      rfl
    | guard t => exact absurd (hrlxd.symm.trans hpoint) (by decide)
    | cancelDrop permit t =>
      simp only [FuturePoolManagerRlxd.runWorkerLoop, DispatcherLoop.preCancelled]
      split <;> rfl
    | insertCount t | insert t =>
      simp only at hr
      simp [FuturePoolManagerRlxd.runWorkerLoop, hr]
    | exit | drain | exited => cases hleaving
    | _ => rfl

/-- The loop goes on until it has exited, or aborts. -/
theorem loopStep_isSome {d : DispatcherLoop} {s : Pool σ R} (hs : InPlace cfg s)
    (hd : d.inPlace cfg) (hlane : d.lane < cfg.lanes) :
    (loopStep cfg pid s.shared d).isSome =
      !((Proc.loop d : Proc R).ended || (Proc.loop d).aborts s.shared) := by
  obtain ⟨l, hl⟩ : ∃ l, s.shared.lanes[d.lane]? = some l :=
    ⟨_, List.getElem?_eq_getElem (hs.lanes ▸ hlane)⟩
  unfold loopStep
  cases hkind : cfg.kind with
  | strict => exact FuturePoolManager.isSome_runWorkerLoop hkind hl hd
  | rlxd =>
    exact FuturePoolManagerRlxd.isSome_runWorkerLoop hkind hl (hs.shards hkind ▸ hlane) hd

theorem Wrapper.isSome_unwind {w : Wrapper R} {tx : Bool} :
    (w.unwind sh tx).isSome = !(sh.tasks w.task).future.dropPanics := by
  unfold Wrapper.unwind
  cases (sh.tasks w.task).future.dropPanics <;> rfl

theorem wrapperStep_isSome {w : Wrapper R} {s : Pool σ R} (hs : InPlace cfg s)
    (hw : w.inPlace cfg) :
    (wrapperStep cfg s.shared w).isSome =
      !((Proc.wrapper w).ended || (Proc.wrapper w).aborts s.shared) := by
  obtain ⟨task, slot, sender, pc⟩ := w
  obtain ⟨hslot, hpoint⟩ := hw
  unfold wrapperStep
  cases hkind : cfg.kind with
  | strict =>
    cases pc with
    | settled status =>
      simp only [FuturePoolManager.wrapper, Wrapper.body]
      split <;> rfl
    | unwind tx => exact Wrapper.isSome_unwind
    | finish | release => exact absurd (hkind.symm.trans hpoint) (by decide)
    | _ => rfl
  | rlxd =>
    have hlt : slot < s.shared.shards.length := hs.shards hkind ▸ hslot hkind
    cases pc with
    | settled status =>
      simp only [FuturePoolManagerRlxd.wrapper, Wrapper.body]
      split <;> rfl
    | unwind tx => exact Wrapper.isSome_unwind
    | finish =>
      simp [FuturePoolManagerRlxd.wrapper, List.getElem?_eq_getElem hlt, Proc.ended, Proc.aborts,
        WrapperPc.over]
    | remove => exact absurd (hkind.symm.trans hpoint) (by decide)
    | _ => rfl

omit [Semaphore σ] in
/-- A `shutdown` call goes on until it has returned, unless it waits. -/
theorem ShutdownCall.isSome_step {c : ShutdownCall} {s : Pool σ R} (hs : InPlace cfg s)
    (hc : c.pc.inPlace cfg) :
    (c.step cfg s.shared).isSome =
      !((Proc.shutdown c : Proc R).ended || (Proc.shutdown c).waits s.shared) := by
  obtain ⟨clone, mode, already, closed, dropped, pc⟩ := c
  cases pc with
  | sweep shard tokens | count shard active =>
    simp only [ShutdownCall.step]
    split <;> rfl
  | cancelAll tokens => cases tokens <;> rfl
  | takeNotifier =>
    simp only [ShutdownCall.step]
    split <;> rfl
  | join handles =>
    cases handles with
    | nil => rfl
    | cons lane handles =>
      have hlt : lane < s.shared.lanes.length := hs.lanes ▸ hc lane List.mem_cons_self
      obtain ⟨⟨items, receiver, done⟩, hl⟩ : ∃ l, s.shared.lanes[lane]? = some l :=
        ⟨_, List.getElem?_eq_getElem hlt⟩
      cases done <;> simp [ShutdownCall.step, Proc.ended, Proc.waits, hl]
  | awaitNotifier =>
    cases hdone : s.shared.notifier.workerDone <;>
      simp [ShutdownCall.step, Proc.ended, Proc.waits, hdone]
  | dropSelf pc => cases pc <;> rfl
  | _ => rfl

omit [Semaphore σ] in
theorem LabelCancelCall.isSome_step {c : LabelCancelCall} :
    (c.step cfg sh).isSome = !(Proc.labelCancel c : Proc R).ended := by
  obtain ⟨clone, labels, pc⟩ := c
  cases pc with
  | start | sweep =>
    simp only [LabelCancelCall.step]
    split <;> rfl
  | cancelAll tokens => cases tokens <;> rfl
  | returned => rfl

omit [Semaphore σ] in
theorem AddHandlerCall.isSome_step {c : AddHandlerCall} :
    (c.step pid sh).isSome =
      !((Proc.addHandler c : Proc R).ended || (Proc.addHandler c).waits sh) := by
  obtain ⟨clone, pc⟩ := c
  cases pc with
  | push =>
    cases hreading : sh.notifier.reading <;>
      simp [AddHandlerCall.step, Proc.ended, Proc.waits, hreading]
  | _ => rfl

omit [Semaphore σ] in
theorem NotifierLoop.isSome_step {n : NotifierLoop} :
    (n.step sh).isSome = !(Proc.notifier n : Proc R).ended := by
  obtain ⟨signaled, pc⟩ := n
  cases pc with
  | recv =>
    simp only [NotifierLoop.step]
    split
    · rfl
    · split <;> rfl
  | lock msg =>
    simp only [NotifierLoop.step]
    split <;> rfl
  | deliver info rest => cases rest <;> rfl
  | _ => rfl

variable {s : Pool σ R} {ok : Pool σ R → PoolEvent R → Prop}

omit [Semaphore σ] in
theorem Next.isSome_toProc {L : Type} (f : L → Proc R) (next : Next σ R L) :
    (next.toProc f).isSome = next.isSome := by
  cases next <;> rfl

/-- A process goes on until it has ended, unless it waits or aborts. -/
theorem Proc.isSome_run (hcfg : cfg.Built) (h : (poolMachine σ R cfg).Reachable ok s)
    (hp : s.At pid p) :
    (Proc.run cfg .step pid s.shared p).isSome =
      !(p.ended || p.waits s.shared || p.aborts s.shared) := by
  have hs := in_place hcfg h
  have hplace := hs.procs pid p hp
  cases p with
  | submit c =>
    have hsome := submitStep_isSome pid hs hplace
    simpa [Proc.run, Next.isSome_toProc, Proc.ended, Proc.waits, Proc.aborts] using hsome
  | loop d =>
    have hlane : d.lane < cfg.lanes := by
      obtain ⟨l, hl, -⟩ := (dispatchers h).agrees pid d hp
      rw [(dispatchers h).lane pid d hp, ← hs.lanes]
      exact (List.getElem?_eq_some_iff.mp hl).1
    simp only [Proc.run, Next.isSome_toProc, loopStep_isSome hs hplace hlane, Proc.waits,
      Bool.or_false]
  | wrapper w =>
    simp only [Proc.run, Next.isSome_toProc, wrapperStep_isSome hs hplace, Proc.waits,
      Bool.or_false]
  | notifier n =>
    simp only [Proc.run, Next.isSome_toProc, NotifierLoop.isSome_step, Proc.waits, Proc.aborts,
      Bool.or_false]
  | shutdown c =>
    simp only [Proc.run, Next.isSome_toProc, ShutdownCall.isSome_step hs hplace, Proc.aborts,
      Bool.or_false]
  | drop c =>
    obtain ⟨clone, closed, pc⟩ := c
    cases pc <;> rfl
  | labelCancel c =>
    simp only [Proc.run, Next.isSome_toProc, LabelCancelCall.isSome_step, Proc.waits, Proc.aborts,
      Bool.or_false]
  | addHandler c =>
    simp only [Proc.run, Next.isSome_toProc, AddHandlerCall.isSome_step, Proc.aborts,
      Bool.or_false]

end Enabled

/-- The next step of process `pid` is not enabled. -/
def Pool.halted [Semaphore σ] (cfg : PoolConfig) (s : Pool σ R) (pid : Nat) : Bool :=
  ((pool σ R cfg).step s (.run .step pid)).isNone

theorem Pool.halted_eq [Semaphore σ] {ok : Pool σ R → PoolEvent R → Prop} {s : Pool σ R}
    (hcfg : cfg.Built) (h : (poolMachine σ R cfg).Reachable ok s) (hp : s.At pid p) :
    s.halted cfg pid = (p.ended || p.waits s.shared || p.aborts s.shared) := by
  have hsome := Proc.isSome_run hcfg h hp
  have hstep : ((pool σ R cfg).step s (.run .step pid)).isSome =
      (Proc.run cfg .step pid s.shared p).isSome := by
    simp only [Program.step, hp, Option.bind_some, Option.isSome_map]
    rfl
  rw [Pool.halted, ← Option.not_isSome, hstep, hsome, Bool.not_not]

/-- A `shutdown` call joins the dispatcher, which is about to leave. -/
def joining : Pool FairSemaphore Nat :=
  (poolMachine FairSemaphore Nat (.rlxd 1 1 1 "pool")).after (fun _ _ => true)
    (.call (.shutdown 0 .graceful) :: stepping [1, 1, 1, 1, 1, 1])
    (Pool.new _ _ (.rlxd 1 1 1 "pool"))

end FuturesOrchestra
