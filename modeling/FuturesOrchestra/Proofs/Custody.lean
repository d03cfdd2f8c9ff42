import FuturesOrchestra.Proofs.Evolution

/-!
# Where a task is

A task that `submit` has created is held by one process, queued in one lane, or
settled. `owns` counts the process that holds the live result sender, and
`task_placed` is the balance. `carries` also counts a wrapper that has settled its
task, so that `task_carried` says that a task is spawned at most once and never
comes back to a queue.
-/

namespace FuturesOrchestra

open Interleaving

variable {σ R : Type} {cfg : PoolConfig} {pid t : Nat} {sh sh' : Shared σ R}
  {sp : Option (Proc R)}

/-- The task a `submit` call holds. -/
def SubmitPc.task : SubmitPc → Option Nat
  | .scan t .. | .tryAcquire t | .route t | .insertCount t _ | .insert t _ | .lookup t _
  | .spawn t .. | .sendToken t | .sendClosed t | .selectToken t | .selectAcquire t
  | .sendRoute t | .push t _ => some t
  | _ => none

/-- The task a dispatcher loop holds and has not settled. -/
def LoopPc.task : LoopPc → Option Nat
  | .acquire hand | .acquireToken hand | .recheck hand | .exit _ hand => hand
  | .guard t | .precheck _ t | .cancelSend _ t | .insertCount t | .insert t | .lookup t _
  | .spawn t .. => some t
  | _ => none

/-- The wrapper still holds the result sender. -/
def WrapperPc.unsettled : WrapperPc R → Bool
  | .poll | .selectCancelled | .resolved _ | .outcome _ | .unwind true => true
  | _ => false

/-- The task whose live result sender the process holds. -/
def Proc.owns : Proc R → Option Nat
  | .submit c => c.pc.task
  | .loop d => d.pc.task
  | .wrapper w => if w.pc.unsettled then some w.task else none
  | _ => none

/-- The task the process holds, or has held as its wrapper. -/
def Proc.carries : Proc R → Option Nat
  | .submit c => c.pc.task
  | .loop d => d.pc.task
  | .wrapper w => some w.task
  | _ => none

/-- Whether an option names `t`, as a weight. -/
def names (t : Nat) (o : Option Nat) : Nat := if o = some t then 1 else 0

@[simp] theorem names_none (t : Nat) : names t none = 0 := rfl

theorem names_self (t : Nat) : names t (some t) = 1 := if_pos rfl

theorem names_other {u : Nat} (h : t ≠ u) : names t (some u) = 0 := by
  simp [names, Ne.symm h]

/-- How often a task is queued. -/
def Shared.queued (sh : Shared σ R) (t : Nat) : Nat := (sh.lanes.map (·.items.count t)).sum

/-- Whether a task exists, as a weight. -/
def Shared.created (sh : Shared σ R) (t : Nat) : Nat := if t < sh.nextTaskId then 1 else 0

/-- Whether the result sender of a task is gone, as a weight. -/
def Shared.settled (sh : Shared σ R) (t : Nat) : Nat := (sh.tasks t).sender.settled.toNat

theorem Shared.queued_setLane {i : Nat} {l : Lane} (l' : Lane) (h : sh.lanes[i]? = some l) :
    (sh.setLane i l').queued t + l.items.count t = sh.queued t + l'.items.count t :=
  Threads.sum_map_set l' (fun l => l.items.count t) h

theorem Shared.queued_push {i u clone : Nat} {l : Lane} (h : sh.lanes[i]? = some l) :
    (((sh.setLane i { l with items := l.items ++ [u] }).modifyTask u Task.accept).unborrow
      clone).queued t = sh.queued t + names t (some u) := by
  show (sh.setLane i { l with items := l.items ++ [u] }).queued t = _
  have hset := queued_setLane (t := t) { l with items := l.items ++ [u] } h
  have hcount : (l.items ++ [u]).count t = l.items.count t + names t (some u) := by
    by_cases ht : t = u
    · simp [ht, names_self]
    · simp [names_other ht, List.count_eq_zero.mpr, ht]
  simp only [hcount] at hset
  omega

theorem Shared.queued_take {lane u : Nat} {items : List Nat} {receiver done : Bool}
    (h : sh.lanes[lane]? = some ⟨u :: items, receiver, done⟩) :
    (sh.setLane lane ⟨items, receiver, done⟩).queued t + names t (some u) = sh.queued t := by
  have hset := queued_setLane (t := t) ⟨items, receiver, done⟩ h
  have hcount : (u :: items).count t = items.count t + names t (some u) := by
    by_cases ht : t = u
    · simp [ht, names_self]
    · simp [names_other ht, Ne.symm ht]
  simp only [hcount] at hset
  omega

theorem Shared.queued_pos :
    0 < sh.queued t ↔ ∃ (i : Nat) (l : Lane), sh.lanes[i]? = some l ∧ t ∈ l.items := by
  constructor
  · intro hpos
    obtain ⟨n, hn, hcount⟩ := List.exists_mem_ne_zero_of_sum_ne_zero hpos.ne'
    obtain ⟨l, hl, rfl⟩ := List.mem_map.mp hn
    obtain ⟨i, hi⟩ := List.getElem?_of_mem hl
    exact ⟨i, l, hi, List.count_pos_iff.mp (Nat.pos_of_ne_zero hcount)⟩
  · rintro ⟨i, l, hl, ht⟩
    exact (List.count_pos_iff.mpr ht).trans_le
      (List.le_sum_of_mem (List.mem_map_of_mem (List.mem_of_getElem? hl)))

theorem Shared.queued_eq (h : sh'.lanes = sh.lanes) : sh'.queued t = sh.queued t := by
  rw [queued, queued, h]

namespace Task

@[simp] theorem dropSender_settled (task : Task R) : task.dropSender.sender.settled = true := by
  unfold dropSender
  cases h : task.sender <;> simp [h, ResultSender.settled]

@[simp] theorem send_settled (task : Task R) (result : Except PoolError R) :
    (task.send result).sender.settled = true := by
  unfold send
  cases h : task.sender <;> simp [h, ResultSender.settled]

theorem Touched.sender {a b : Task R} (h : a.Touched b) : b.sender = a.sender := by
  cases h <;> rfl

end Task

/-! ## The balance -/

/-- A task is queued or settled, as a weight of the shared state. -/
def Shared.resting (sh : Shared σ R) (t : Nat) : Nat := sh.queued t + sh.settled t

theorem Shared.resting_eq (hlanes : sh'.lanes = sh.lanes)
    (hsender : (sh'.tasks t).sender = (sh.tasks t).sender) : sh'.resting t = sh.resting t := by
  rw [resting, resting, queued_eq hlanes, settled, settled, hsender]

theorem Shared.created_eq (h : sh'.nextTaskId = sh.nextTaskId) : sh'.created t = sh.created t := by
  rw [created, created, h]

/-- Settling a task that was held makes up for the loss of its holder. -/
theorem Shared.resting_settle {u : Nat} (hlanes : sh'.lanes = sh.lanes)
    (hself : (sh'.tasks u).sender.settled = true)
    (hother : ∀ v, v ≠ u → (sh'.tasks v).sender = (sh.tasks v).sender)
    (hle : sh.resting t + names t (some u) ≤ sh.created t) :
    sh'.resting t = sh.resting t + names t (some u) := by
  have hcreated : sh.created t ≤ 1 := by
    unfold created
    split <;> omega
  rw [resting, queued_eq hlanes, settled]
  by_cases ht : t = u
  · subst ht
    rw [names_self] at hle ⊢
    have hlive : sh.settled t = 0 := by
      unfold resting at hle
      omega
    simp [resting, hlive, hself]
  · rw [names_other ht, hother t ht]
    rfl

/-- The balance of a `submit` call that drops its task `u`. -/
theorem Shared.placed_withdraw {c : SubmitCall R} {u : Nat} (hlanes : sh'.lanes = sh.lanes)
    (htasks : sh'.tasks = sh.tasks) (hnext : sh'.nextTaskId = sh.nextTaskId)
    (hle : sh.resting t + names t (some u) ≤ sh.created t) :
    (sh'.withdraw c u).resting t + 0 + 0 + sh.created t =
      sh.resting t + names t (some u) + (sh'.withdraw c u).created t := by
  have hresting : (sh'.withdraw c u).resting t = sh.resting t + names t (some u) := by
    refine resting_settle hlanes ?_ (fun v hv => ?_) hle
    · simp [Task.dropReceiver]
    · simp [hv, htasks]
  have hcreated : (sh'.withdraw c u).created t = sh.created t := created_eq hnext
  omega

/-- A new task is held by the call that creates it. -/
theorem Shared.resting_createTask (labels : Finset TaskLabel) (future : TaskFuture R)
    (hle : sh.resting t ≤ sh.created t) :
    (sh.createTask labels future).resting t = sh.resting t ∧
      (sh.createTask labels future).created t = sh.created t + names t (some sh.nextTaskId) := by
  by_cases ht : t = sh.nextTaskId
  · subst ht
    have hnone : sh.created sh.nextTaskId = 0 := by simp [created]
    have hsettled : sh.settled sh.nextTaskId = 0 := by
      unfold resting at hle
      omega
    refine ⟨?_, by simp [created, names_self]⟩
    rw [resting, resting, hsettled]
    simp [settled, queued, Task.new, ResultSender.settled]
  · refine ⟨by simp [resting, settled, queued, ht], ?_⟩
    rw [names_other ht, created, created]
    have hiff : t < sh.nextTaskId + 1 ↔ t < sh.nextTaskId := by omega
    simp [hiff]

/-- The balance of a loop that drops or settles task `u`. -/
theorem Shared.placed_settle {u : Nat} {f : Task R → Task R} (hlanes : sh'.lanes = sh.lanes)
    (htasks : sh'.tasks = sh.tasks) (hnext : sh'.nextTaskId = sh.nextTaskId)
    (hf : ∀ task, (f task).sender.settled = true)
    (hle : sh.resting t + names t (some u) ≤ sh.created t) :
    (sh'.modifyTask u f).resting t + 0 + 0 + sh.created t =
      sh.resting t + names t (some u) + (sh'.modifyTask u f).created t := by
  have hresting : (sh'.modifyTask u f).resting t = sh.resting t + names t (some u) := by
    refine resting_settle hlanes ?_ (fun v hv => ?_) hle
    · simp [hf]
    · simp [hv, htasks]
  have hcreated : (sh'.modifyTask u f).created t = sh.created t := created_eq hnext
  omega

/-- The balance of a loop that takes task `u` out of its lane and drops it. -/
theorem Shared.placed_discard {lane u : Nat} {items : List Nat} {receiver done : Bool}
    (h : sh.lanes[lane]? = some ⟨u :: items, receiver, done⟩)
    (hlanes : sh'.lanes = (sh.setLane lane ⟨items, receiver, done⟩).lanes)
    (htasks : sh'.tasks = sh.tasks) (hnext : sh'.nextTaskId = sh.nextTaskId)
    (hle : sh.resting t ≤ sh.created t) :
    (sh'.modifyTask u Task.dropSender).resting t + 0 + 0 + sh.created t =
      sh.resting t + 0 + (sh'.modifyTask u Task.dropSender).created t := by
  have htake := queued_take (t := t) h
  have hheld : (sh.setLane lane ⟨items, receiver, done⟩).resting t + names t (some u) =
      sh.resting t := by
    have hsame : (sh.setLane lane ⟨items, receiver, done⟩).settled t = sh.settled t := rfl
    simp only [resting]
    omega
  have hcreated : (sh.setLane lane ⟨items, receiver, done⟩).created t = sh.created t := rfl
  have hsettle : (sh'.modifyTask u Task.dropSender).resting t + 0 + 0 +
        (sh.setLane lane ⟨items, receiver, done⟩).created t =
      (sh.setLane lane ⟨items, receiver, done⟩).resting t + names t (some u) +
        (sh'.modifyTask u Task.dropSender).created t :=
    placed_settle hlanes htasks hnext Task.dropSender_settled (by omega)
  omega

variable [Semaphore σ]

theorem SubmitStep.placed {kind : PoolKind} {c c' : SubmitCall R}
    (hle : sh.resting t + names t c.pc.task ≤ sh.created t)
    (h : SubmitStep kind pid sh c sh' c' sp) :
    sh'.resting t + names t c'.pc.task + Threads.started (fun p => names t p.owns) sp +
      sh.created t = sh.resting t + names t c.pc.task + sh'.created t := by
  cases h with
  | refuse hpc =>
    rcases hpc with hpc | hpc <;>
      simp [Shared.resting, Shared.queued, Shared.settled, Shared.created, SubmitPc.task, hpc]
  | create hkind hpc | createScan hkind hpc =>
    simp only [SubmitPc.task, hpc, names_none, Nat.add_zero] at hle
    obtain ⟨hresting, hcreated⟩ := Shared.resting_createTask c.labels c.future hle
    simp only [SubmitPc.task, SubmitCall.goto_pc, hpc, Threads.started_none, names_none]
    omega
  | @spawn u shard sender hkind hpc =>
    have hresting : ((sh.modifyTask u Task.accept).unborrow c.clone).resting t = sh.resting t := by
      by_cases ht : t = u <;>
        simp [Shared.resting, Shared.queued, Shared.settled, Task.accept, ht]
    simp [SubmitPc.task, Proc.owns, WrapperPc.unsettled, hpc, hresting, Shared.created]
  | @reject u hpc | @abandon u hpc =>
    have htask : c.pc.task = some u := by rcases hpc with hpc | hpc <;> simp [SubmitPc.task, hpc]
    rw [htask] at hle ⊢
    exact Shared.placed_withdraw rfl rfl rfl hle
  | @selectCancelled u hpc =>
    have htask : c.pc.task = some u := by simp [SubmitPc.task, hpc]
    rw [htask] at hle ⊢
    exact Shared.placed_withdraw rfl rfl rfl hle
  | @pushFails u lane l hpc =>
    have htask : c.pc.task = some u := by simp [SubmitPc.task, hpc]
    rw [htask] at hle ⊢
    exact Shared.placed_withdraw rfl rfl rfl hle
  | @push u lane l hpc hlane hrecv =>
    have hqueued : (((sh.setLane lane { l with items := l.items ++ [u] }).modifyTask u
        Task.accept).unborrow c.clone).queued t = sh.queued t + names t (some u) :=
      Shared.queued_push hlane
    have hsettled : (((sh.setLane lane { l with items := l.items ++ [u] }).modifyTask u
        Task.accept).unborrow c.clone).settled t = sh.settled t := by
      by_cases ht : t = u <;> simp [Shared.settled, Task.accept, ht]
    have hcreated : (((sh.setLane lane { l with items := l.items ++ [u] }).modifyTask u
        Task.accept).unborrow c.clone).created t = sh.created t := rfl
    simp only [SubmitPc.task, hpc, SubmitCall.goto_pc, names_none, Threads.started_none,
      Shared.resting, hsettled]
    omega
  | _ => simp [Shared.resting, Shared.queued, Shared.settled, Shared.created, SubmitPc.task, *]

theorem LoopStep.placed {d d' : DispatcherLoop}
    (hle : sh.resting t + names t d.pc.task ≤ sh.created t)
    (h : LoopStep cfg pid sh d sh' d' sp) :
    sh'.resting t + names t d'.pc.task + Threads.started (fun p => names t p.owns) sp +
      sh.created t = sh.resting t + names t d.pc.task + sh'.created t := by
  cases h with
  | @recv u items receiver done hkind hpc hlane | @recvRlxd u items receiver done hkind hpc hlane =>
    have htake := Shared.queued_take (t := t) hlane
    simp [LoopPc.task, hpc, Shared.resting, Shared.queued, Shared.settled, Shared.created]
      at htake ⊢
    omega
  | recvDiscard hkind hpc hlane =>
    have htask : d.pc.task = none := by simp [LoopPc.task, hpc]
    rw [htask] at hle ⊢
    exact Shared.placed_discard hlane rfl rfl rfl hle
  | drain hpc hlane =>
    have htask : d.pc.task = none := by simp [LoopPc.task, hpc]
    rw [htask] at hle ⊢
    exact Shared.placed_discard hlane rfl rfl rfl hle
  | @guardStop u hkind hpc =>
    have htask : d.pc.task = some u := by simp [LoopPc.task, hpc]
    rw [htask] at hle ⊢
    exact Shared.placed_settle rfl rfl rfl Task.dropSender_settled hle
  | @exitHand u hpc =>
    have htask : d.pc.task = some u := by simp [LoopPc.task, hpc]
    rw [htask] at hle ⊢
    exact Shared.placed_settle rfl rfl rfl Task.dropSender_settled hle
  | @cancelSend permit u hpc =>
    have htask : d.pc.task = some u := by simp [LoopPc.task, hpc]
    rw [htask] at hle ⊢
    exact Shared.placed_settle rfl rfl rfl (fun task => task.send_settled _) hle
  | spawn hpc =>
    simp [LoopPc.task, Proc.owns, WrapperPc.unsettled, hpc]
  | @exitReceiver l hpc hlane | @exitLast l hpc hlane =>
    have hset := Shared.queued_setLane (t := t) { l with receiver := false } hlane
    simp [LoopPc.task, hpc, Shared.resting, Shared.queued, Shared.settled, Shared.created]
      at hset ⊢
    omega
  | @drained receiver done hpc hlane =>
    have hset := Shared.queued_setLane (t := t) ⟨[], receiver, true⟩ hlane
    simp [LoopPc.task, hpc, Shared.resting, Shared.queued, Shared.settled, Shared.created]
      at hset ⊢
    omega
  | _ => simp [Shared.resting, Shared.queued, Shared.settled, Shared.created, LoopPc.task, *]

theorem WrapperStep.placed {w w' : Wrapper R}
    (hle : sh.resting t + names t (Proc.wrapper w).owns ≤ sh.created t)
    (h : WrapperStep cfg sh w sh' w') :
    sh'.resting t + names t (Proc.wrapper w').owns + sh.created t =
      sh.resting t + names t (Proc.wrapper w).owns + sh'.created t := by
  cases h with
  | pollPending hpc | pollReady hpc | pollPanicked hpc =>
    have hresting : (sh.modifyTask w.task Task.countPoll).resting t = sh.resting t := by
      by_cases ht : t = w.task <;>
        simp [Shared.resting, Shared.queued, Shared.settled, Task.countPoll, ht]
    simp [Proc.owns, WrapperPc.unsettled, hpc, hresting, Shared.created]
  | finish hkind hpc =>
    have hresting : (sh.modifyTask w.task Task.markFinished).resting t = sh.resting t := by
      by_cases ht : t = w.task <;>
        simp [Shared.resting, Shared.queued, Shared.settled, Task.markFinished, ht]
    simp [Proc.owns, WrapperPc.unsettled, hpc, hresting, Shared.created]
  | send hpc | sendUnwind hpc =>
    have howns : (Proc.wrapper w).owns = some w.task := by
      simp [Proc.owns, WrapperPc.unsettled, hpc]
    rw [howns] at hle ⊢
    exact Shared.placed_settle rfl rfl rfl (fun task => task.send_settled _) hle
  | unwind hpc =>
    have howns : (Proc.wrapper w).owns = some w.task := by
      simp [Proc.owns, WrapperPc.unsettled, hpc]
    have hunheard : (sh.releasePermit.modifyTask w.task Task.dropSender).hangUp w.sender =
        (sh.releasePermit.hangUp w.sender).modifyTask w.task Task.dropSender := rfl
    rw [howns] at hle ⊢
    rw [hunheard]
    exact Shared.placed_settle rfl rfl rfl Task.dropSender_settled hle
  | _ =>
    simp [Shared.resting, Shared.queued, Shared.settled, Shared.created, Proc.owns,
      WrapperPc.unsettled, *]

/-- In every run a task that was created is in exactly one place: queued, held by
one process, or settled. -/
theorem task_placed {ok : Pool σ R → PoolEvent R → Prop} {s : Pool σ R}
    (h : (poolMachine σ R cfg).Reachable ok s) (t : Nat) :
    s.shared.queued t + s.shared.settled t + (s.tally fun p => names t p.owns) =
      s.shared.created t := by
  refine Pool.conserved (f := fun sh => sh.resting t) (k := fun sh => sh.created t)
    SubmitStep.placed LoopStep.placed WrapperStep.placed ?_ ?_ (fun _ _ _ => rfl) h ?_
  · intro sh sh' hquiet
    rw [Shared.resting_eq hquiet.lanes (hquiet.tasks t).sender, Shared.created_eq hquiet.nextTaskId]
  · intro p hp
    cases p <;> first | rfl | exact hp.elim
  · show (Shared.new cfg : Shared σ R).resting t +
      (Pool.new σ R cfg).tally (fun p => names t p.owns) = (Shared.new cfg : Shared σ R).created t
    rw [Pool.tally_new (g := fun p => names t p.owns) fun _ => rfl]
    simp [Shared.resting, Shared.queued, Shared.settled, Shared.created, Shared.new, Task.new,
      ResultSender.settled]

/-! ## Spawned at most once -/

omit [Semaphore σ] in
theorem Shared.created_createTask (labels : Finset TaskLabel) (future : TaskFuture R) :
    (sh.createTask labels future).created t = sh.created t + names t (some sh.nextTaskId) := by
  unfold created names
  simp only [createTask_nextTaskId, Option.some.injEq]
  split <;> split <;> split <;> omega

theorem SubmitStep.carried {kind : PoolKind} {c c' : SubmitCall R}
    (h : SubmitStep kind pid sh c sh' c' sp) :
    sh'.queued t + names t c'.pc.task + Threads.started (fun p => names t p.carries) sp +
      sh.created t ≤ sh.queued t + names t c.pc.task + sh'.created t := by
  cases h with
  | create hkind hpc | createScan hkind hpc =>
    rw [Shared.created_createTask]
    simp [Shared.queued, SubmitPc.task, hpc]
    omega
  | @push u lane l hpc hlane =>
    rw [Shared.queued_push hlane]
    simp [SubmitPc.task, hpc, Shared.created]
  | refuse hpc | reject hpc | abandon hpc =>
    rcases hpc with hpc | hpc <;> simp [Shared.queued, Shared.created, SubmitPc.task, hpc]
  | spawn hkind hpc => simp [Shared.queued, Shared.created, SubmitPc.task, Proc.carries, hpc]
  | _ => simp [Shared.queued, Shared.created, SubmitPc.task, *]

theorem LoopStep.carried {d d' : DispatcherLoop} (h : LoopStep cfg pid sh d sh' d' sp) :
    sh'.queued t + names t d'.pc.task + Threads.started (fun p => names t p.carries) sp +
      sh.created t ≤ sh.queued t + names t d.pc.task + sh'.created t := by
  cases h with
  | recv hkind hpc hlane | recvRlxd hkind hpc hlane | recvDiscard hkind hpc hlane =>
    have htake := Shared.queued_take (t := t) hlane
    simp [LoopPc.task, hpc, Shared.queued, Shared.created] at htake ⊢
    omega
  | drain hpc hlane =>
    have htake := Shared.queued_take (t := t) hlane
    simp [LoopPc.task, hpc, Shared.queued, Shared.created] at htake ⊢
    omega
  | @exitReceiver l hpc hlane | @exitLast l hpc hlane =>
    have hset := Shared.queued_setLane (t := t) { l with receiver := false } hlane
    simp [LoopPc.task, hpc, Shared.queued, Shared.created] at hset ⊢
    omega
  | @drained receiver done hpc hlane =>
    have hset := Shared.queued_setLane (t := t) ⟨[], receiver, true⟩ hlane
    simp [LoopPc.task, hpc, Shared.queued, Shared.created] at hset ⊢
    omega
  | spawn hpc => simp [LoopPc.task, Proc.carries, hpc]
  | _ => simp [Shared.queued, Shared.created, LoopPc.task, *]

theorem WrapperStep.carried {w w' : Wrapper R} (h : WrapperStep cfg sh w sh' w') :
    sh'.queued t + names t (Proc.wrapper w').carries + sh.created t ≤
      sh.queued t + names t (Proc.wrapper w).carries + sh'.created t := by
  cases h <;> simp [Shared.queued, Shared.created, Proc.carries]

/-- In every run a task that was created is at most once queued, held or spawned. -/
theorem task_carried {ok : Pool σ R → PoolEvent R → Prop} {s : Pool σ R}
    (h : (poolMachine σ R cfg).Reachable ok s) (t : Nat) :
    s.shared.queued t + (s.tally fun p => names t p.carries) ≤ s.shared.created t := by
  refine Pool.bounded (f := fun sh => sh.queued t) (k := fun sh => sh.created t)
    SubmitStep.carried LoopStep.carried WrapperStep.carried ?_ ?_ (fun _ _ _ => rfl) h ?_
  · intro sh sh' hquiet
    rw [Shared.queued_eq hquiet.lanes, Shared.created_eq hquiet.nextTaskId]
  · intro p hp
    cases p <;> first | rfl | exact hp.elim
  · show (Shared.new cfg : Shared σ R).queued t +
      (Pool.new σ R cfg).tally (fun p => names t p.carries) ≤ (Shared.new cfg : Shared σ R).created t
    rw [Pool.tally_new (g := fun p => names t p.carries) fun _ => rfl]
    simp [Shared.queued, Shared.new]

/-! ## What the balances say -/

section Consequences

variable {ok : Pool σ R → PoolEvent R → Prop} {s : Pool σ R} {p q : Proc R} {qid : Nat}

omit [Semaphore σ] in
theorem Proc.carries_of_owns (h : p.owns = some t) : p.carries = some t := by
  cases p with
  | wrapper w =>
    simp only [owns] at h
    split at h
    · exact h
    · cases h
  | _ => exact h

omit [Semaphore σ] in
theorem Shared.created_le (sh : Shared σ R) (t : Nat) : sh.created t ≤ 1 := by
  unfold created
  split <;> omega

theorem lt_of_carries (h : (poolMachine σ R cfg).Reachable ok s) (hp : s.procs[pid]? = some p)
    (hc : p.carries = some t) : t < s.shared.nextTaskId := by
  have hcarried := task_carried h t
  have hle := Threads.le_tally (g := fun p => names t p.carries) hp
  simp only [hc, names_self] at hle
  by_contra hlt
  have hnone : s.shared.created t = 0 := by simp [Shared.created, hlt]
  omega

theorem not_queued_of_carries (h : (poolMachine σ R cfg).Reachable ok s)
    (hp : s.procs[pid]? = some p) (hc : p.carries = some t) : s.shared.queued t = 0 := by
  have hcarried := task_carried h t
  have hle := Threads.le_tally (g := fun p => names t p.carries) hp
  have hone := s.shared.created_le t
  simp only [hc, names_self] at hle
  omega

/-- A task has one carrier. -/
theorem carrier_unique (h : (poolMachine σ R cfg).Reachable ok s) (hp : s.procs[pid]? = some p)
    (hq : s.procs[qid]? = some q) (hpc : p.carries = some t) (hqc : q.carries = some t) :
    pid = qid := by
  by_contra hne
  have hcarried := task_carried h t
  have hle := Threads.add_le_tally (g := fun p => names t p.carries) hne hp hq
  have hone := s.shared.created_le t
  simp only [hpc, hqc, names_self] at hle
  omega

theorem live_of_owns (h : (poolMachine σ R cfg).Reachable ok s) (hp : s.procs[pid]? = some p)
    (ho : p.owns = some t) : (s.shared.tasks t).sender = .live := by
  have hplaced := task_placed h t
  have hle := Threads.le_tally (g := fun p => names t p.owns) hp
  have hone := s.shared.created_le t
  simp only [ho, names_self] at hle
  have hsettled : s.shared.settled t = 0 := by omega
  unfold Shared.settled at hsettled
  cases hsender : (s.shared.tasks t).sender <;> simp [hsender, ResultSender.settled] at hsettled ⊢

theorem not_carried_of_queued (h : (poolMachine σ R cfg).Reachable ok s)
    (ht : 0 < s.shared.queued t) (hp : s.procs[pid]? = some p) : p.carries ≠ some t := by
  intro hc
  have hnone := not_queued_of_carries h hp hc
  omega

theorem live_of_queued (h : (poolMachine σ R cfg).Reachable ok s) (ht : 0 < s.shared.queued t) :
    t < s.shared.nextTaskId ∧ (s.shared.tasks t).sender = .live := by
  have hplaced := task_placed h t
  have hone := s.shared.created_le t
  have hsettled : s.shared.settled t = 0 := by omega
  refine ⟨?_, ?_⟩
  · by_contra hlt
    have hnone : s.shared.created t = 0 := by simp [Shared.created, hlt]
    omega
  · unfold Shared.settled at hsettled
    cases hsender : (s.shared.tasks t).sender <;>
      simp [hsender, ResultSender.settled] at hsettled ⊢

end Consequences

end FuturesOrchestra
