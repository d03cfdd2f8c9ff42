import FuturesOrchestra.Proofs.Stuck
import Mathlib.Data.Int.CardIntervalMod

/-!
# Round-robin routing

The relaxed pool spreads its tasks over its lanes with one counter, which direct
dispatch and the queue share. The log of the counter tells which task was routed to
which lane. `Routed` says that every task that is on its way is where the log says,
and that no task is in the log twice.
-/

namespace FuturesOrchestra

open Interleaving

variable {σ R : Type} {cfg : PoolConfig} {pid t : Nat} {sh sh' : Shared σ R}
  {sp : Option (Proc R)} {p p' : Proc R}

/-! ## The log of the counter -/

/-- The task that the next step of the call routes, and its lane. -/
def SubmitCall.routes (sh : Shared σ R) (c : SubmitCall R) : Option (Nat × Nat) :=
  match c.pc with
  | .route t => some (t, sh.nextLane % sh.shards.length)
  | .sendRoute t => some (t, sh.nextLane % sh.lanes.length)
  | _ => none

def Proc.routes (sh : Shared σ R) : Proc R → Option (Nat × Nat)
  | .submit c => c.routes sh
  | _ => none

/-- What a step routes. -/
def observeRoute (s : Pool σ R) : PoolEvent R → List (Nat × Nat)
  | .run _ pid => (s.procs[pid]?.bind (Proc.routes s.shared)).toList
  | .call _ => []

/-- The tasks that were routed, in order. -/
abbrev routedTasks (log : List (Nat × Nat)) : List Nat := log.map Prod.fst

/-- The lanes they were routed to, in order. -/
abbrev routedLanes (log : List (Nat × Nat)) : List Nat := log.map Prod.snd

theorem routedTasks_append (log : List (Nat × Nat)) (x : Nat × Nat) :
    routedTasks (log ++ [x]) = routedTasks log ++ [x.1] := List.map_append

theorem routedLanes_append (log : List (Nat × Nat)) (x : Nat × Nat) :
    routedLanes (log ++ [x]) = routedLanes log ++ [x.2] := List.map_append

/-! ## Where a task is -/

/-- The task of a call that has routed it, and its lane. -/
def SubmitPc.bound : SubmitPc → Option (Nat × Nat)
  | .insertCount t shard | .insert t shard | .lookup t shard | .spawn t shard _ => some (t, shard)
  | .push t lane => some (t, lane)
  | _ => none

/-- The task in the hand of a loop, and the lane it came from. -/
def DispatcherLoop.bound (d : DispatcherLoop) : Option (Nat × Nat) :=
  match d.pc with
  | .lookup t slot | .spawn t slot _ => some (t, slot)
  | pc => pc.task.map (·, d.lane)

def Proc.bound : Proc R → Option (Nat × Nat)
  | .submit c => c.pc.bound
  | .loop d => d.bound
  | .wrapper w => some (w.task, w.slot)
  | _ => none

/-- The task of a call that has not routed it yet. -/
def SubmitPc.unrouted : SubmitPc → Option Nat
  | .scan t _ _ | .tryAcquire t | .route t | .sendToken t | .sendClosed t | .selectToken t
  | .selectAcquire t | .sendRoute t => some t
  | _ => none

def Proc.unrouted : Proc R → Option Nat
  | .submit c => c.pc.unrouted
  | _ => none

/-- The task of `x` is queued in the lane of `x`. -/
def Shared.Queues (sh : Shared σ R) (x : Nat × Nat) : Prop :=
  ∃ l, sh.lanes[x.2]? = some l ∧ x.1 ∈ l.items

/-- A step that routes nothing: no task comes to a lane that is not its own. -/
structure Unrouting (sh sh' : Shared σ R) (p p' : Proc R) (sp : Option (Proc R)) : Prop where
  nextLane : sh'.nextLane = sh.nextLane
  bound : ∀ x, p'.bound = some x → p.bound = some x ∨ sh.Queues x
  started : ∀ q x, sp = some q → q.bound = some x → p.bound = some x
  queues : ∀ x, sh'.Queues x → sh.Queues x ∨ p.bound = some x
  accepted : ∀ t, (sh'.tasks t).accepted = true →
    (sh.tasks t).accepted = true ∨ ∃ lane, p.bound = some (t, lane)
  unrouted : ∀ t, p'.unrouted = some t → p.unrouted = some t ∨ t = sh.nextTaskId

/-- A step that routes the task of `x` to the lane of `x`. -/
structure Routing (cfg : PoolConfig) (sh sh' : Shared σ R) (p p' : Proc R)
    (sp : Option (Proc R)) (x : Nat × Nat) : Prop where
  lane : x.2 = sh.nextLane % cfg.lanes
  nextLane : sh'.nextLane = (sh.nextLane + 1) % 2 ^ 64
  before : p.unrouted = some x.1
  carries : p.carries = some x.1
  bound : p'.bound = some x
  unrouted : p'.unrouted = none
  started : sp = none
  lanes : sh'.lanes = sh.lanes
  tasks : sh'.tasks = sh.tasks
  nextTaskId : sh'.nextTaskId = sh.nextTaskId

theorem Proc.carries_of_unrouted (h : p.unrouted = some t) : p.carries = some t := by
  cases p with
  | submit c =>
    obtain ⟨clone, labels, future, pc, unwound⟩ := c
    cases pc <;> first | exact h | cases h
  | _ => cases h

theorem Unrouting.of_quiet (hquiet : sh.Quiet sh') (hp' : p'.bystander)
    (hsp : ∀ q, sp = some q → q.bystander) : Unrouting sh sh' p p' sp where
  nextLane := hquiet.nextLane
  bound x hx := by
    cases p' <;> first | exact hp'.elim | cases hx
  started q x hq hx := by
    have hby := hsp q hq
    cases q <;> first | exact hby.elim | cases hx
  queues x hx := by
    rw [Shared.Queues, hquiet.lanes] at hx
    exact .inl hx
  accepted t ht := .inl ((hquiet.tasks t).accepted ▸ ht)
  unrouted t ht := by
    cases p' <;> first | exact hp'.elim | cases ht

theorem Shared.Queues.of_eq {x : Nat × Nat} (hlanes : sh'.lanes = sh.lanes) (h : sh'.Queues x) :
    sh.Queues x := by
  rwa [Shared.Queues, hlanes] at h

/-- What is queued after a lane was written. -/
theorem Shared.queues_setLane {i : Nat} {l l' : Lane} {x : Nat × Nat}
    (hlanes : sh'.lanes = sh.lanes.set i l') (hl : sh.lanes[i]? = some l) (h : sh'.Queues x) :
    sh.Queues x ∨ x.2 = i ∧ x.1 ∈ l'.items := by
  obtain ⟨m, hm, hmem⟩ := h
  rw [hlanes] at hm
  by_cases hi : i = x.2
  · subst hi
    rw [List.getElem?_set_self (List.getElem?_eq_some_iff.mp hl).1] at hm
    cases hm
    exact .inr ⟨rfl, hmem⟩
  · rw [List.getElem?_set_ne hi] at hm
    exact .inl ⟨m, hm, hmem⟩

variable [Semaphore σ]

/-- A call routes its task, or brings it where it was routed. -/
theorem SubmitStep.routing {c c' : SubmitCall R} (hkind : cfg.kind = .rlxd)
    (hlanes : sh.lanes.length = cfg.lanes) (hshards : sh.shards.length = cfg.lanes)
    (h : SubmitStep cfg.kind pid sh c sh' c' sp) :
    (c.routes sh = none ∧ Unrouting sh sh' (.submit c) (.submit c') sp) ∨
      ∃ x, c.routes sh = some x ∧ Routing cfg sh sh' (.submit c) (.submit c') sp x := by
  have hidle {sh₁ : Shared σ R} {c₁ : SubmitCall R} (hroutes : c.routes sh = none)
      (hnext : sh₁.nextLane = sh.nextLane) (hsame : sh₁.lanes = sh.lanes)
      (haccepted : ∀ t, (sh₁.tasks t).accepted = true → (sh.tasks t).accepted = true)
      (hbound : ∀ x, c₁.pc.bound = some x → c.pc.bound = some x)
      (hunrouted : ∀ t, c₁.pc.unrouted = some t → c.pc.unrouted = some t ∨ t = sh.nextTaskId) :
      (c.routes sh = none ∧ Unrouting sh sh₁ (.submit c) (.submit c₁) none) ∨
        ∃ x, c.routes sh = some x ∧ Routing cfg sh sh₁ (.submit c) (.submit c₁) none x :=
    .inl ⟨hroutes, hnext, fun x hx => .inl (hbound x hx), by rintro q x ⟨⟩,
      fun x hx => .inl (hx.of_eq hsame), fun t ht => .inl (haccepted t ht), hunrouted⟩
  cases h with
  | @route u _ hpc | @sendRoute u _ hpc =>
    refine .inr ⟨_, by rw [SubmitCall.routes, hpc], ?_⟩
    refine ⟨?_, rfl, ?_, ?_, rfl, rfl, rfl, rfl, rfl, rfl⟩
    · simp [hlanes, hshards]
    · rw [Proc.unrouted, hpc, SubmitPc.unrouted]
    · rw [Proc.carries, hpc, SubmitPc.task]
  | @spawn u shard sender _ hpc =>
    refine .inl ⟨by rw [SubmitCall.routes, hpc], rfl, by rintro x ⟨⟩, ?_, fun x hx => .inl hx,
      fun t ht => ?_, by rintro t ⟨⟩⟩
    · rintro q x ⟨⟩ ⟨⟩
      rw [Proc.bound, hpc, SubmitPc.bound]
    · by_cases ht' : t = u
      · refine .inr ⟨shard, ?_⟩
        rw [Proc.bound, hpc, SubmitPc.bound, ht']
      · exact .inl (by simpa [ht'] using ht)
  | @push u lane l hpc hlane hrecv =>
    refine .inl ⟨by rw [SubmitCall.routes, hpc], rfl, by rintro x ⟨⟩, by rintro q x ⟨⟩,
      fun x hx => ?_, fun t ht => ?_, by rintro t ⟨⟩⟩
    · rcases Shared.queues_setLane rfl hlane hx with hbefore | ⟨hi, hmem⟩
      · exact .inl hbefore
      · rcases List.mem_append.mp hmem with hold | hnew
        · exact .inl ⟨l, hi ▸ hlane, hold⟩
        · refine .inr ?_
          rw [Proc.bound, hpc, SubmitPc.bound, ← hi, ← List.mem_singleton.mp hnew]
    · by_cases ht' : t = u
      · refine .inr ⟨lane, ?_⟩
        rw [Proc.bound, hpc, SubmitPc.bound, ht']
      · exact .inl (by simpa [ht'] using ht)
  | create hkind hpc | createScan hkind hpc =>
    refine hidle (by rw [SubmitCall.routes, hpc]) rfl rfl (fun t ht => ?_) (by rintro x ⟨⟩) ?_
    · by_cases ht' : t = sh.nextTaskId
      · simp [ht', Task.new] at ht
      · simpa [ht'] using ht
    · rintro t ⟨⟩
      exact .inr rfl
  | reject hpc | pushFails hpc | selectCancelled hpc | abandon hpc =>
    refine hidle ?_ rfl rfl (fun t ht => ?_) (by rintro x ⟨⟩) (by rintro t ⟨⟩)
    · first | rw [SubmitCall.routes, hpc] | (rcases hpc with hpc | hpc <;> rw [SubmitCall.routes, hpc])
    · rwa [Shared.withdraw_kept Task.accepted Task.dropSender_accepted fun _ => rfl] at ht
  | refuse hpc =>
    refine hidle ?_ rfl rfl (fun _ => id) (by rintro x ⟨⟩) (by rintro t ⟨⟩)
    rcases hpc with hpc | hpc <;> rw [SubmitCall.routes, hpc]
  -- only the strict pool goes on to its one lane at once
  | selectAcquired hstrict =>
    rw [hkind] at hstrict
    cases hstrict
  | _ =>
    refine hidle ?_ rfl rfl (fun _ => id) ?_ ?_
    · simp [SubmitCall.routes, *]
    · simp [SubmitPc.bound, *]
    · simp [SubmitPc.unrouted, *]

omit [Semaphore σ] in
/-- A loop that keeps its task, or gets rid of it, and leaves the lanes alone. -/
theorem Unrouting.of_loop {d d' : DispatcherLoop} (hnext : sh'.nextLane = sh.nextLane)
    (hlanes : sh'.lanes = sh.lanes)
    (haccepted : ∀ t, (sh'.tasks t).accepted = true → (sh.tasks t).accepted = true)
    (hbound : ∀ x, d'.bound = some x → d.bound = some x) :
    Unrouting sh sh' (.loop d) (.loop d') none where
  nextLane := hnext
  bound x hx := .inl (hbound x hx)
  started := by rintro q x ⟨⟩
  queues x hx := .inl (hx.of_eq hlanes)
  accepted t ht := .inl (haccepted t ht)
  unrouted := by rintro t ⟨⟩

omit [Semaphore σ] in
/-- A loop that takes the first task out of its lane, or changes nothing but the marks of
the lane. -/
theorem Unrouting.of_lane {d d' : DispatcherLoop} {l l' : Lane}
    (hnext : sh'.nextLane = sh.nextLane) (hlane : sh.lanes[d.lane]? = some l)
    (hlanes : sh'.lanes = sh.lanes.set d.lane l') (hitems : ∀ t ∈ l'.items, t ∈ l.items)
    (haccepted : ∀ t, (sh'.tasks t).accepted = true → (sh.tasks t).accepted = true)
    (hbound : ∀ x, d'.bound = some x → x.2 = d.lane ∧ x.1 ∈ l.items) :
    Unrouting sh sh' (.loop d) (.loop d') none where
  nextLane := hnext
  bound x hx := by
    obtain ⟨hi, hmem⟩ := hbound x hx
    exact .inr ⟨l, hi ▸ hlane, hmem⟩
  started := by rintro q x ⟨⟩
  queues x hx := by
    rcases Shared.queues_setLane hlanes hlane hx with hbefore | ⟨hi, hmem⟩
    · exact .inl hbefore
    · exact .inl ⟨l, hi ▸ hlane, hitems _ hmem⟩
  accepted t ht := .inl (haccepted t ht)
  unrouted := by rintro t ⟨⟩

theorem LoopStep.unrouting {d d' : DispatcherLoop} (hkind : cfg.kind = .rlxd)
    (h : LoopStep cfg pid sh d sh' d' sp) : Unrouting sh sh' (.loop d) (.loop d') sp := by
  have haccepted (t : Nat) (ht : (sh'.tasks t).accepted = true) : (sh.tasks t).accepted = true :=
    h.accepted_kept ▸ ht
  cases h with
  | recvRlxd _ hpc hlane | recv _ hpc hlane =>
    refine .of_lane rfl hlane rfl (fun _ => List.mem_cons_of_mem _) haccepted ?_
    rintro x ⟨⟩
    exact ⟨rfl, List.mem_cons_self⟩
  | recvDiscard _ hpc hlane | drain hpc hlane =>
    exact .of_lane rfl hlane rfl (fun _ => List.mem_cons_of_mem _) haccepted (by rintro x ⟨⟩)
  | exitReceiver hpc hlane | exitLast hpc hlane | drained hpc hlane =>
    exact .of_lane rfl hlane rfl (fun _ => id) haccepted (by rintro x ⟨⟩)
  | @spawn u slot sender hpc =>
    refine ⟨rfl, by rintro x ⟨⟩, ?_, fun x hx => .inl hx, fun t ht => .inl ht, by rintro t ⟨⟩⟩
    rintro q x ⟨⟩ ⟨⟩
    rw [Proc.bound, DispatcherLoop.bound, hpc]
  | insert hstrict =>
    rw [hkind] at hstrict
    cases hstrict
  | _ =>
    refine .of_loop rfl rfl haccepted ?_
    simp [DispatcherLoop.bound, LoopPc.task, *]

theorem WrapperStep.unrouting {w w' : Wrapper R} (h : WrapperStep cfg sh w sh' w') :
    Unrouting sh sh' (.wrapper w) (.wrapper w') none := by
  have haccepted (t : Nat) (ht : (sh'.tasks t).accepted = true) : (sh.tasks t).accepted = true :=
    h.accepted_kept ▸ ht
  have hnext : sh'.nextLane = sh.nextLane := by cases h <;> rfl
  have hlanes : sh'.lanes = sh.lanes := by cases h <;> rfl
  have hbound : (Proc.wrapper w').bound = (Proc.wrapper w).bound := by cases h <;> rfl
  refine ⟨hnext, fun x hx => .inl (hbound ▸ hx), ?_, fun x hx => .inl (hx.of_eq hlanes),
    fun t ht => .inl (haccepted t ht), ?_⟩
  · rintro q x ⟨⟩
  · rintro t ⟨⟩

/-- A step routes a task, or brings no task to another lane. -/
theorem Proc.routing_of_step (hkind : cfg.kind = .rlxd) (hlanes : sh.lanes.length = cfg.lanes)
    (hshards : sh.shards.length = cfg.lanes) (h : Proc.Step cfg pid sh p sh' p' sp) :
    (p.routes sh = none ∧ Unrouting sh sh' p p' sp) ∨
      ∃ x, p.routes sh = some x ∧ Routing cfg sh sh' p p' sp x := by
  cases h with
  | submit hstep => exact hstep.routing hkind hlanes hshards
  | loop hstep => exact .inl ⟨rfl, hstep.unrouting hkind⟩
  | wrapper hstep => exact .inl ⟨rfl, hstep.unrouting⟩
  | bystander hp hp' hstep =>
    refine .inl ⟨?_, .of_quiet hstep.1 hp' hstep.2⟩
    cases p <;> first | rfl | exact hp.elim

/-- The loop works on the shard of its own lane. -/
def DispatcherLoop.OnLane (d : DispatcherLoop) : Prop := ∀ x, d.bound = some x → x.2 = d.lane

theorem LoopStep.onLane {d d' : DispatcherLoop} (hkind : cfg.kind = .rlxd)
    (h : LoopStep cfg pid sh d sh' d' sp) (hd : d.OnLane) : d'.OnLane := by
  unfold DispatcherLoop.OnLane at *
  cases h with
  | insert hstrict =>
    rw [hkind] at hstrict
    cases hstrict
  | lookup hpc =>
    rintro x ⟨⟩
    exact hd _ (by rw [DispatcherLoop.bound, hpc])
  | _ => simp [DispatcherLoop.bound, LoopPc.task]

theorem loop_onLane (hkind : cfg.kind = .rlxd) {s : Pool σ R}
    (h : (poolMachine σ R cfg).Reachable Machine.anyStep s) :
    ∀ pid d, s.At pid (.loop d) → d.OnLane := by
  refine Pool.invariant (I := fun s => ∀ pid d, s.At pid (.loop d) → d.OnLane) .refl ?_ ?_ h ?_
  · intro s b pid p sh p' sp _ hs _ hp hrun qid d hd
    rcases Threads.update_getElem? hp hd with ⟨rfl, rfl⟩ | ⟨-, hold⟩ | ⟨-, hnew⟩
    · obtain ⟨d₀, rfl, hstep⟩ := Proc.loop_of_run hrun
      exact hstep.onLane hkind (hs _ _ hp)
    · exact hs _ _ hold
    · rcases Proc.started_of_run (hnew ▸ hrun) with ⟨w, heq⟩ | heq <;> cases heq
  · intro s c sh sp _ hs _ hcall qid d hd
    rcases Threads.spawn_getElem? hd with hold | ⟨-, hnew⟩
    · exact hs _ _ hold
    · cases (Call.enter_quiet hcall).2 _ hnew with
      | bystander hby => exact hby.elim
  · intro pid d hd
    cases (Pool.init_loop hd).2
    rintro x ⟨⟩

/-! ## The log in a run -/

/-- The log, next to what the pool looks like. -/
structure Routed (cfg : PoolConfig) (s : Pool σ R) (log : List (Nat × Nat)) : Prop where
  counter : s.shared.nextLane = log.length % 2 ^ 64
  lanes : routedLanes log = (List.range log.length).map fun k => k % 2 ^ 64 % cfg.lanes
  bound : ∀ pid p x, s.At pid p → p.bound = some x → x ∈ log
  queued : ∀ x, s.shared.Queues x → x ∈ log
  accepted : ∀ t, (s.shared.tasks t).accepted = true → t ∈ routedTasks log
  nodup : (routedTasks log).Nodup
  created : ∀ t ∈ routedTasks log, t < s.shared.nextTaskId
  fresh : ∀ pid p t, s.At pid p → p.unrouted = some t → t ∉ routedTasks log

namespace Routed

variable {s : Pool σ R} {log : List (Nat × Nat)} {x : Nat × Nat}

omit [Semaphore σ] in
theorem mem_tasks (h : x ∈ log) : x.1 ∈ routedTasks log := List.mem_map_of_mem h

omit [Semaphore σ] in
theorem unroute (hs : Routed cfg s log) (hp : s.At pid p)
    (hnext : s.shared.nextTaskId ≤ sh'.nextTaskId)
    (hstarted : ∀ q, sp = some q → q.unrouted = none) (h : Unrouting s.shared sh' p p' sp) :
    Routed cfg (s.update pid sh' p' sp) log where
  counter := h.nextLane.trans hs.counter
  lanes := hs.lanes
  bound qid q x hq hx := by
    rcases Threads.update_getElem? hp hq with ⟨rfl, rfl⟩ | ⟨-, hold⟩ | ⟨-, hnew⟩
    · exact (h.bound x hx).elim (hs.bound _ _ x hp) (hs.queued x)
    · exact hs.bound _ _ x hold hx
    · exact hs.bound _ _ x hp (h.started q x hnew hx)
  queued x hx := (h.queues x hx).elim (hs.queued x) (hs.bound _ _ x hp)
  accepted t ht := by
    rcases h.accepted t ht with hbefore | ⟨lane, hbound⟩
    · exact hs.accepted t hbefore
    · exact mem_tasks (hs.bound _ _ _ hp hbound)
  nodup := hs.nodup
  created t ht := (hs.created t ht).trans_le hnext
  fresh qid q t hq ht hmem := by
    rcases Threads.update_getElem? hp hq with ⟨rfl, rfl⟩ | ⟨-, hold⟩ | ⟨-, hnew⟩
    · rcases h.unrouted t ht with hbefore | rfl
      · exact hs.fresh _ _ t hp hbefore hmem
      · exact Nat.lt_irrefl _ (hs.created _ hmem)
    · exact hs.fresh _ _ t hold ht hmem
    · rw [hstarted q hnew] at ht
      cases ht

/-- A task is routed: its number is that of the counter, and nobody else has it. -/
theorem route (hs : Routed cfg s log) (hreach : (poolMachine σ R cfg).Reachable Machine.anyStep s)
    (hp : s.At pid p) (h : Routing cfg s.shared sh' p p' sp x) :
    Routed cfg (s.update pid sh' p' sp) (log ++ [x]) where
  counter := by
    rw [Threads.update_shared, h.nextLane, hs.counter, List.length_append, List.length_singleton]
    exact Nat.mod_add_mod _ _ _
  lanes := by
    rw [routedLanes_append, List.length_append, List.length_singleton, List.range_succ,
      List.map_append, hs.lanes, List.map_singleton, h.lane, hs.counter]
  bound qid q y hq hy := by
    rcases Threads.update_getElem? hp hq with ⟨rfl, rfl⟩ | ⟨-, hold⟩ | ⟨-, hnew⟩
    · obtain rfl := Option.some.inj (h.bound.symm.trans hy)
      exact List.mem_append_right _ (List.mem_singleton_self _)
    · exact List.mem_append_left _ (hs.bound _ _ y hold hy)
    · cases h.started.symm.trans hnew
  queued y hy := List.mem_append_left _ (hs.queued y (hy.of_eq h.lanes))
  accepted t ht := by
    rw [Threads.update_shared, h.tasks] at ht
    rw [routedTasks_append]
    exact List.mem_append_left _ (hs.accepted t ht)
  nodup := by
    rw [routedTasks_append]
    refine List.nodup_append'.mpr ⟨hs.nodup, List.nodup_singleton _, ?_⟩
    exact List.disjoint_singleton.mpr (hs.fresh _ _ _ hp h.before)
  created t ht := by
    rw [Threads.update_shared, h.nextTaskId]
    rw [routedTasks_append, List.mem_append, List.mem_singleton] at ht
    rcases ht with hold | rfl
    · exact hs.created t hold
    · exact lt_of_carries hreach hp h.carries
  fresh qid q t hq ht hmem := by
    rw [routedTasks_append, List.mem_append, List.mem_singleton] at hmem
    rcases Threads.update_getElem? hp hq with ⟨rfl, rfl⟩ | ⟨hne, hold⟩ | ⟨-, hnew⟩
    · cases h.unrouted.symm.trans ht
    -- nobody else has the task that is routed in this step
    · rcases hmem with hbefore | rfl
      · exact hs.fresh _ _ t hold ht hbefore
      · exact hne (carrier_unique hreach hold hp (Proc.carries_of_unrouted ht) h.carries)
    · cases h.started.symm.trans hnew

end Routed

theorem routed (hcfg : cfg.Built) (hkind : cfg.kind = .rlxd) {s : Pool σ R}
    {log : List (Nat × Nat)}
    (h : ((poolMachine σ R cfg).logged observeRoute).Reachable Machine.anyStep (s, log)) :
    Routed cfg s log := by
  refine (h.invariant (I := fun x => (poolMachine σ R cfg).Reachable Machine.anyStep x.1 ∧
    Routed cfg x.1 x.2) ?_ ?_).2
  · rintro ⟨s, log⟩ e ⟨s', log'⟩ ⟨hreach, hs⟩ hgood hstep
    obtain ⟨hnext, hlog⟩ := Machine.logged_step hstep
    refine ⟨hreach.tail hgood hnext, ?_⟩
    subst hlog
    cases e with
    | run b pid =>
      obtain ⟨p, sh, p', sp, hp, hrun, rfl⟩ := Program.step_run hnext
      have hstep := Proc.step_of_run hrun
      have hplaces := in_place hcfg hreach
      have hobserved : observeRoute s (.run b pid) = (p.routes s.shared).toList := by
        rw [observeRoute, hp]
        rfl
      rw [hobserved]
      rcases Proc.routing_of_step hkind hplaces.lanes (hplaces.shards hkind) hstep with
        ⟨hnone, hunrouting⟩ | ⟨x, hsome, hrouting⟩
      · rw [hnone, Option.toList_none, List.append_nil]
        refine hs.unroute hp (Shared.Evolves.proc hstep).nextTaskId (fun q hq => ?_) hunrouting
        rcases Proc.started_of_run (hq ▸ hrun) with ⟨w, rfl⟩ | rfl <;> rfl
      · rw [hsome]
        exact hs.route hreach hp hrouting
    | call c =>
      obtain ⟨sh, sp, hcall, rfl⟩ := Program.step_call hnext
      obtain ⟨hquiet, hentered⟩ := Call.enter_quiet hcall
      rw [observeRoute, List.append_nil]
      have hnew {q : Proc R} (hq : sp = some q) : q.bound = none ∧ q.unrouted = none := by
        cases hentered q hq with
        | bystander hby => cases q <;> first | exact ⟨rfl, rfl⟩ | exact hby.elim
        | submit => exact ⟨rfl, rfl⟩
      refine ⟨hquiet.nextLane.trans hs.counter, hs.lanes, fun pid p x hp hx => ?_,
        fun x hx => hs.queued x (hx.of_eq hquiet.lanes), fun t ht => ?_, hs.nodup, fun t ht => ?_,
        fun pid p t hp ht => ?_⟩
      · rcases Threads.spawn_getElem? hp with hold | ⟨-, hq⟩
        · exact hs.bound pid p x hold hx
        · cases (hnew hq).1.symm.trans hx
      · rw [Threads.spawn_shared, (hquiet.tasks t).accepted] at ht
        exact hs.accepted t ht
      · rw [Threads.spawn_shared, hquiet.nextTaskId]
        exact hs.created t ht
      · rcases Threads.spawn_getElem? hp with hold | ⟨-, hq⟩
        · exact hs.fresh pid p t hold ht
        · cases (hnew hq).2.symm.trans ht
  · refine ⟨.refl, rfl, rfl, fun pid p x hp hx => ?_, ?_, ?_, .nil, ?_, ?_⟩
    · rw [(Pool.init_loop hp).2] at hx
      cases hx
    · rintro x ⟨l, hl, hmem⟩
      have hfresh : (List.replicate cfg.lanes (⟨[], true, false⟩ : Lane))[x.2]? = some l := hl
      rw [(List.mem_replicate.mp (List.mem_of_getElem? hfresh)).2] at hmem
      cases hmem
    · rintro t ⟨⟩
    · rintro t ⟨⟩
    · rintro pid p t _ _ ⟨⟩

/-! ## How even it is -/

/-- Among the first `n` numbers the classes modulo `r` differ by at most one. -/
theorem count_mod_le {n r i j : Nat} (hi : i < r) (hj : j < r) :
    ((List.range n).map (· % r)).count i ≤ ((List.range n).map (· % r)).count j + 1 := by
  have hcount {v : Nat} (hv : v < r) :
      ((List.range n).map (· % r)).count v = n / r + if v < n % r then 1 else 0 := by
    have hclass := Nat.count_modEq_card n (Nat.zero_lt_of_lt hv) v
    rw [Nat.mod_eq_of_lt hv] at hclass
    rw [← hclass, List.count, List.countP_map, Nat.count]
    refine List.countP_congr fun k _ => ?_
    simp [Nat.ModEq, Nat.mod_eq_of_lt hv]
  rw [hcount hi, hcount hj]
  split <;> split <;> omega

/-- Routing is round-robin. In every run of a relaxed pool every accepted task was
routed, and no task twice; a task that is queued, in the hand of a dispatcher or
running is in the lane, and in the shard of the registry, that it was routed to; the
`k`-th routing takes lane `k` modulo the number of lanes, up to the wrap of the 64-bit
counter. So until the counter wraps no lane has been given two tasks more than another. -/
theorem routing_is_even (σ R : Type) [Semaphore σ] (limit capacity dispatchers : Nat)
    (poolName : String) (s : Pool σ R) (log : List (Nat × Nat))
    (h : ((poolMachine σ R (.rlxd limit capacity dispatchers poolName)).logged
      observeRoute).Reachable Machine.anyStep (s, log)) :
    (routedTasks log).Nodup ∧
      (∀ t, (s.shared.tasks t).accepted = true → t ∈ routedTasks log) ∧
      (∀ lane l t, s.shared.lanes[lane]? = some l → t ∈ l.items → (t, lane) ∈ log) ∧
      (∀ pid d t, s.At pid (.loop d) → d.pc.task = some t → (t, d.lane) ∈ log) ∧
      (∀ pid w, s.At pid (.wrapper w) → (w.task, w.slot) ∈ log) ∧
      routedLanes log =
        (List.range log.length).map (fun k => k % 2 ^ 64 % max dispatchers 1) ∧
      ∀ i < max dispatchers 1, ∀ j < max dispatchers 1, log.length ≤ 2 ^ 64 →
        (routedLanes log).count i ≤ (routedLanes log).count j + 1 := by
  have hs := routed (.inr ⟨limit, capacity, dispatchers, poolName, rfl⟩) rfl h
  refine ⟨hs.nodup, hs.accepted, fun lane l t hl ht => hs.queued _ ⟨l, hl, ht⟩, ?_,
    fun pid w hw => hs.bound pid _ _ hw rfl, hs.lanes, fun i hi j hj hwrap => ?_⟩
  · intro pid d t hd ht
    have hreach : (poolMachine σ R (.rlxd limit capacity dispatchers poolName)).Reachable
        Machine.anyStep s := (Machine.Steps.of_logged h : Machine.Steps _ Machine.anyStep _ _)
    have hbound : ∃ lane, d.bound = some (t, lane) := by
      obtain ⟨lane, pc, panicked⟩ := d
      cases pc <;> cases ht <;> exact ⟨_, rfl⟩
    obtain ⟨lane, hlane⟩ := hbound
    have hown : lane = d.lane := loop_onLane rfl hreach pid d hd _ hlane
    exact hown ▸ hs.bound pid _ _ hd hlane
  · have hplain : routedLanes log = (List.range log.length).map (· % max dispatchers 1) := by
      rw [hs.lanes]
      refine List.map_congr_left fun k hk => ?_
      rw [Nat.mod_eq_of_lt ((List.mem_range.mp hk).trans_le hwrap)]
      rfl
    rw [hplain]
    exact count_mod_le hi hj

/-- A pool with two lanes and one permit, and the log of its counter: the first task is
dispatched directly, the second one is queued. -/
def routedTwo : Pool FairSemaphore Nat × List (Nat × Nat) :=
  ((poolMachine FairSemaphore Nat (.rlxd 1 2 2 "pool")).logged observeRoute).after
    (fun _ _ => true)
    (.call (.submit 0 ∅ (.ready 7)) :: stepping [2, 2, 2, 2, 2, 2, 2, 2, 2, 2, 2, 2] ++
      .call (.submit 0 ∅ (.ready 8)) :: stepping [4, 4, 4, 4, 4, 4, 4, 4, 4, 4, 4, 4])
    (Pool.new _ _ (.rlxd 1 2 2 "pool"), [])

theorem routing_is_even_two :
    routedTwo.2 = [(0, 0), (1, 1)] ∧
      (routedLanes routedTwo.2).count 0 ≤ (routedLanes routedTwo.2).count 1 + 1 := by
  have hreach : ((poolMachine FairSemaphore Nat (.rlxd 1 2 2 "pool")).logged
      observeRoute).Reachable Machine.anyStep routedTwo := (Machine.steps_after _ _ _ _).any
  obtain ⟨-, -, -, -, -, -, heven⟩ := routing_is_even FairSemaphore Nat 1 2 2 "pool" routedTwo.1
    routedTwo.2 hreach
  exact ⟨by rfl, heven 0 (by decide) 1 (by decide) (by decide)⟩

end FuturesOrchestra
