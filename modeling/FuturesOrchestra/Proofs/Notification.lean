import FuturesOrchestra.Proofs.Telling
import FuturesOrchestra.Proofs.Borrows

/-!
# Completion notification

When a task is reported to the handlers, exactly once and with the status of the
result its handle gets. In a run with a registered handler that is so as long as
the sink is not closed before the task was spawned or found cancelled, and not
between the moment a dispatcher finds it cancelled and its lookup of the sender:
`sought` counts the places from which that lookup is still to come, and it never
grows.
-/

namespace FuturesOrchestra

open Interleaving

variable {σ R : Type} {cfg : PoolConfig} {pid t h : Nat} {sh sh' : Shared σ R}
  {sp : Option (Proc R)} {p p' : Proc R}

/-! ## The way to the lookup -/

/-- The places from which the completion sender of task `t` is still to be looked up:
it has yet to be submitted, is queued, or is held by a process. -/
def Pool.sought (t : Nat) (s : Pool σ R) : Nat :=
  (1 - s.shared.created t) + s.shared.queued t + s.tally fun p => names t p.seeks

/-- The process is a dispatcher that has found task `t` cancelled and has not looked its
sender up. -/
def Proc.foundCancelled (t : Nat) : Proc R → Bool
  | .loop d => match d.pc with
    | .cancelSend _ u | .cancelLookup _ u => u == t
    | _ => false
  | _ => false

/-- Task `t` was not found cancelled and its sender was not looked up. -/
def Pool.awaits (t : Nat) (s : Pool σ R) : Bool :=
  decide (s.shared.nextTaskId ≤ t) || decide (0 < s.shared.queued t) ||
    s.procs.any fun p => p.seeks == some t && !p.foundCancelled t

/-- The event closes the sink. -/
def closes (s : Pool σ R) : PoolEvent R → Bool
  | .run _ pid => (s.procs[pid]?).any (·.closesSink)
  | .call _ => false

/-- The sink is not closed before task `t` is spawned or found cancelled. -/
def sinkOutlasts (t : Nat) (s : Pool σ R) (e : PoolEvent R) : Bool :=
  !closes s e || !s.awaits t

/-- The sink is not closed while a dispatcher has found task `t` cancelled and has not
looked its sender up. -/
def sinkAwaitsLookup (t : Nat) (s : Pool σ R) (e : PoolEvent R) : Bool :=
  !closes s e || !s.procs.any (·.foundCancelled t)

/-- No destructor that the pool may run for task `t` panics. -/
def calmTask (t : Nat) (s : Pool σ R) : Bool :=
  decide (s.shared.nextTaskId ≤ t) || (s.shared.tasks t).future.calm

theorem Pool.not_sought {s : Pool σ R} (hawaits : s.awaits t = false)
    (hfound : s.procs.any (·.foundCancelled t) = false) : s.sought t = 0 := by
  simp only [awaits, Bool.or_eq_false_iff, decide_eq_false_iff_not, Nat.not_le] at hawaits
  obtain ⟨⟨hlt, hqueued⟩, hseeks⟩ := hawaits
  have hcreated : s.shared.created t = 1 := if_pos hlt
  have htally : (s.tally fun p => names t p.seeks) = 0 := by
    refine Threads.tally_eq_zero fun pid p hp => if_neg fun hseeking => ?_
    have hmem := List.mem_of_getElem? hp
    have hno := List.any_eq_false.mp hseeks p hmem
    have hnone := List.any_eq_false.mp hfound p hmem
    simp [hseeking, hnone] at hno
  rw [sought, hcreated, htally]
  omega

variable [Semaphore σ]

theorem SubmitStep.sought {kind : PoolKind} {c c' : SubmitCall R}
    (h : SubmitStep kind pid sh c sh' c' sp) :
    sh'.queued t + names t c'.pc.seeks + Threads.started (fun p => names t p.seeks) sp +
      sh.created t ≤ sh.queued t + names t c.pc.seeks + sh'.created t := by
  cases h with
  | create hkind hpc | createScan hkind hpc =>
    rw [Shared.created_createTask]
    simp [Shared.queued, SubmitPc.seeks, SubmitPc.task, hpc]
    omega
  | @push u lane l hpc hlane =>
    rw [Shared.queued_push hlane]
    simp [SubmitPc.seeks, SubmitPc.task, hpc, Shared.created]
  | refuse hpc | reject hpc | abandon hpc =>
    rcases hpc with hpc | hpc <;>
      simp [Shared.queued, Shared.created, SubmitPc.seeks, SubmitPc.task, hpc]
  | spawn hkind hpc =>
    simp [Shared.queued, Shared.created, SubmitPc.seeks, SubmitPc.task, Proc.seeks, hpc]
  | _ => simp [Shared.queued, Shared.created, SubmitPc.seeks, SubmitPc.task, *]

theorem LoopStep.sought {d d' : DispatcherLoop} (h : LoopStep cfg pid sh d sh' d' sp) :
    sh'.queued t + names t d'.pc.seeks + Threads.started (fun p => names t p.seeks) sp +
      sh.created t ≤ sh.queued t + names t d.pc.seeks + sh'.created t := by
  cases h with
  | recv hkind hpc hlane | recvRlxd hkind hpc hlane | recvDiscard hkind hpc hlane =>
    have htake := Shared.queued_take (t := t) hlane
    simp [LoopPc.seeks, LoopPc.task, hpc, Shared.queued, Shared.created] at htake ⊢
    omega
  | drain hpc hlane =>
    have htake := Shared.queued_take (t := t) hlane
    simp [LoopPc.seeks, LoopPc.task, hpc, Shared.queued, Shared.created] at htake ⊢
    omega
  | @exitReceiver l hpc hlane | @exitLast l hpc hlane =>
    have hset := Shared.queued_setLane (t := t) { l with receiver := false } hlane
    simp [LoopPc.seeks, LoopPc.task, hpc, Shared.queued, Shared.created] at hset ⊢
    omega
  | @drained receiver done hpc hlane =>
    have hset := Shared.queued_setLane (t := t) ⟨[], receiver, true⟩ hlane
    simp [LoopPc.seeks, LoopPc.task, hpc, Shared.queued, Shared.created] at hset ⊢
    omega
  | spawn hpc =>
    simp [Shared.queued, Shared.created, LoopPc.seeks, LoopPc.task, Proc.seeks, hpc]
  | _ => simp [Shared.queued, Shared.created, LoopPc.seeks, LoopPc.task, *]

/-- A step brings no task closer to its submission, and a lookup is made once. -/
theorem Proc.Step.sought (h : Proc.Step cfg pid sh p sh' p' sp) :
    sh'.queued t + names t p'.seeks + Threads.started (fun p => names t p.seeks) sp +
      sh.created t ≤ sh.queued t + names t p.seeks + sh'.created t := by
  cases h with
  | submit hstep => exact hstep.sought
  | loop hstep => exact hstep.sought
  | wrapper hstep => cases hstep <;> exact le_rfl
  | bystander hp hp' hstep =>
    have hnone {q : Proc R} (hq : q.bystander) : q.seeks = none := by
      cases q <;> first | rfl | exact hq.elim
    have hstarted : Threads.started (fun p => names t p.seeks) sp = 0 := by
      cases sp with
      | none => rfl
      | some q => rw [Threads.started_some, hnone (hstep.2 q rfl), names_none]
    rw [hnone hp, hnone hp', hstarted, Shared.queued_eq hstep.1.lanes,
      Shared.created_eq hstep.1.nextTaskId, names_none, Nat.add_zero]

section Runs

variable {ok : Pool σ R → PoolEvent R → Prop} {s s' : Pool σ R}

theorem Pool.sought_update {b : Signal} (hp : s.At pid p)
    (hrun : Proc.run cfg b pid s.shared p = some (sh', p', sp)) :
    Pool.sought t (s.update pid sh' p' sp) ≤ s.sought t := by
  have hstep := (Proc.step_of_run hrun).sought (t := t)
  have htally := Threads.tally_update (fun p => names t p.seeks) sh' p' sp hp
  have hmono := Shared.created_mono (t := t) (Shared.Evolves.proc (Proc.step_of_run hrun)).nextTaskId
  have hone := sh'.created_le t
  simp only [sought, Threads.update_shared]
  omega

omit [Semaphore σ] in
theorem Pool.sought_spawn {c : Call R} (hcall : c.enter s.shared = some (sh', sp)) :
    Pool.sought t (s.spawn sh' sp) = s.sought t := by
  obtain ⟨hquiet, -⟩ := Call.enter_quiet hcall
  have hstarted : Threads.started (fun p => names t p.seeks) sp = 0 := by
    cases sp with
    | none => rfl
    | some q => rw [Threads.started_some, (Call.captures_of_enter hcall q rfl).2, names_none]
  rw [sought, sought, Threads.tally_spawn, hstarted, Threads.spawn_shared,
    Shared.created_eq hquiet.nextTaskId, Shared.queued_eq hquiet.lanes, Nat.add_zero]

omit [Semaphore σ] in
theorem Pool.sought_of_looksUp (hp : s.At pid p) (hlooks : p.looksUp = some t) :
    0 < s.sought t := by
  have hle := Threads.le_tally (g := fun p => names t p.seeks) hp
  simp only [Proc.seeks_of_looksUp hlooks, names_self] at hle
  unfold sought
  omega

/-- A task that is heard, and whose sender is looked up in an open sink if it is still
to be looked up by somebody. -/
structure InTime (t : Nat) (s : Pool σ R) : Prop where
  well : WorkerWell s
  heard : Heard t s
  opened : 0 < s.sought t → s.shared.notifier.sink = .opened ∨ s.Deserted

/-- The conditions on a step: the premises on the sink and the destructors, and that the
sink awaits the lookup and no panic ends the worker. -/
def inTime (t : Nat) (s : Pool σ R) (e : PoolEvent R) : Bool :=
  sinkOutlasts t s e && calmTask t s && sinkAwaitsLookup t s e && sparesWorker s e

/-- Whoever looks the sender up finds the sink open. -/
theorem InTime.found (hreach : (poolMachine σ R cfg).Reachable ok s) (hs : InTime t s)
    (hp : s.At pid p) (hlooks : p.looksUp = some t) : s.shared.notifier.sink = .opened :=
  (hs.opened (Pool.sought_of_looksUp hp hlooks)).resolve_right
    fun hdeserted => hdeserted.looksUp_ne hreach hp hlooks

theorem InTime.update {b : Signal} (hreach : (poolMachine σ R cfg).Reachable ok s)
    (hs : InTime t s) (hok : inTime t s (.run b pid) = true) (hp : s.At pid p)
    (hrun : Proc.run cfg b pid s.shared p = some (sh', p', sp)) :
    InTime t (s.update pid sh' p' sp) := by
  simp only [inTime, sinkOutlasts, sinkAwaitsLookup, calmTask, closes, hp, Bool.and_eq_true,
    Bool.or_eq_true, Bool.not_eq_true', Option.any_some, decide_eq_true_eq] at hok
  obtain ⟨⟨⟨houtlasts, hcalm⟩, hawaits⟩, hspares⟩ := hok
  have hheeds : p.heeds t s.shared = true := by
    simp only [Proc.heeds, Bool.and_eq_true, Bool.or_eq_true, bne_iff_ne]
    refine ⟨?_, ?_⟩
    · by_cases hlooks : p.looksUp = some t
      · rw [hs.found hreach hp hlooks]
        exact .inr (by decide)
      · exact .inl hlooks
    · cases p with
      | wrapper w =>
        simp only [Proc.settlesCalmly, Bool.or_eq_true, bne_iff_ne, Bool.not_eq_true']
        by_cases ht : w.task = t
        · have hlt : w.task < s.shared.nextTaskId := lt_of_carries hreach hp rfl
          subst ht
          exact .inr (Wrapper.not_unwinds (hcalm.resolve_left (Nat.not_le.mpr hlt)))
        · exact .inl ht
      | _ => rfl
  refine ⟨hs.well.update hspares hp hrun, hs.heard.update hreach (.inl hs.well) hheeds hp hrun,
    fun hpos => ?_⟩
  have hbefore := hs.opened (hpos.trans_le (Pool.sought_update hp hrun))
  rw [Threads.update_shared]
  cases Proc.sink_of_run hrun with
  | kept hsink => exact hbefore.imp hsink.trans fun hdeserted => hdeserted.update hrun
  | opened _ _ _ hsink => exact .inl hsink
  | dropped hguards hclosed => exact .inr ⟨hguards, hclosed⟩
  | closed hcloses =>
    rw [hcloses] at houtlasts hawaits
    have hnone := Pool.not_sought (houtlasts.resolve_left (by decide))
      (hawaits.resolve_left (by decide))
    have hle := Pool.sought_update (t := t) hp hrun
    omega

theorem InTime.spawn {c : Call R} (hreach : (poolMachine σ R cfg).Reachable ok s)
    (hs : InTime t s) (hcall : c.enter s.shared = some (sh', sp)) :
    InTime t (s.spawn sh' sp) := by
  refine ⟨hs.well.spawn hcall, hs.heard.spawn hreach hcall, fun hpos => ?_⟩
  rw [Pool.sought_spawn hcall] at hpos
  rw [Threads.spawn_shared, (Call.notifier_of_enter hcall).1]
  exact (hs.opened hpos).imp id fun hdeserted => hdeserted.spawn hreach hcall

theorem InTime.steps (hreach : (poolMachine σ R cfg).Reachable Machine.anyStep s)
    (hs : InTime t s) (hsteps : (poolMachine σ R cfg).Steps (fun s e => inTime t s e = true) s s') :
    InTime t s' := by
  refine Pool.invariant (I := InTime t) hreach ?_ ?_ hsteps hs
  · intro s b pid p sh p' sp hreach hs hok hp hrun
    exact hs.update hreach hok hp hrun
  · intro s c sh sp hreach hs _ hcall
    exact hs.spawn hreach hcall

/-- Nobody holds a task that has yet to be submitted. -/
theorem Heard.of_unsubmitted (hreach : (poolMachine σ R cfg).Reachable ok s)
    (hmem : h ∈ s.shared.notifier.handlers) (hnew : s.shared.nextTaskId ≤ t) : Heard t s := by
  have hlive : (s.shared.tasks t).sender = .live := by
    by_contra hsettled
    exact absurd (lt_of_settled hreach hsettled) (Nat.not_lt.mpr hnew)
  have hreported := task_reported hreach t
  have hcreated : s.shared.created t = 0 := if_neg (Nat.not_lt.mpr hnew)
  refine .of_live hreach (sink_of_handler hreach hmem) hlive (fun pid p hp hcaptures => ?_)
    fun pid w hw ht => ?_
  · have hle := Threads.le_tally (g := Proc.unreported t) hp
    simp only [Proc.unreported, hcaptures, names_self] at hle
    omega
  · have hlt : w.task < s.shared.nextTaskId := lt_of_carries hreach hw rfl
    omega

/-- A result that was sent is never one of the pool's own errors. -/
theorem status_of_used {r : Except PoolError R} (hreach : (poolMachine σ R cfg).Reachable ok s)
    (hused : (s.shared.tasks t).sender = .used r) :
    TaskCompletionStatus.ofResult r ≠ .poolErrorOccurred := by
  have hlt := lt_of_settled hreach (by rw [hused]; nofun)
  have hfits := (verdicts hreach).used t r hlt hused
  cases r with
  | ok v => nofun
  | error e => cases e <;> first | exact False.elim hfits | nofun

end Runs

/-! ## Exactly once -/

/-- In every run in which a handler is registered before task `t` is submitted, the
sink is not closed before `t` is spawned or found cancelled, no destructor of `t`
panics, the sink is not closed either between the moment a dispatcher finds `t`
cancelled and its lookup of the sender, and no handler panics with a payload that
panics again when it is dropped: a result of `t` was reported once, with its own
status, or a process is about to report it, with the sink still open if it has yet to
look the sender up; a task that is dropped is not reported; and when the worker has
ended every handler that was registered before `t` was submitted has been called for
it once, whatever handlers have panicked. -/
theorem completion_notified_once (σ R : Type) [Semaphore σ] (cfg : PoolConfig) (t : Nat) :
    let M := poolMachine σ R cfg
    ∀ s₀ s : Pool σ R, M.Reachable (fun s e => sparesWorker s e = true) s₀ →
      s₀.shared.notifier.handlers ≠ [] → s₀.shared.nextTaskId ≤ t →
      s₀.shared.notifier.sink ≠ .closed → M.Steps (fun s e => inTime t s e = true) s₀ s →
      (∀ r, (s.shared.tasks t).sender = .used r →
        Shared.Reporting cfg t r s ∧
          TaskCompletionStatus.ofResult r ≠ .poolErrorOccurred ∧
          (s.shared.notifier.workerDone = true → s.shared.messagesFor t = [cfg.report t r] ∧
            ∀ h ∈ s₀.shared.notifier.handlers, ToldOnce cfg h t r s)) ∧
        ((s.shared.tasks t).sender = .dropped → s.shared.messagesFor t = []) ∧
        (∀ pid p, s.At pid p → p.looksUp = some t → s.shared.notifier.sink = .opened) := by
  intro M s₀ s hspared hhandlers hnew hopen hsteps
  have hreach := hspared.any
  obtain ⟨h, hmem⟩ := List.exists_mem_of_ne_nil _ hhandlers
  have hset := sink_of_handler hreach hmem
  have hstart : InTime t s₀ := by
    refine ⟨worker_well hspared, .of_unsubmitted hreach hmem hnew, fun _ => .inl ?_⟩
    cases hsink : s₀.shared.notifier.sink with
    | unset => exact absurd hsink hset
    | opened => rfl
    | closed => exact absurd hsink hopen
  have hend := hstart.steps hreach hsteps
  have hreach' : M.Reachable Machine.anyStep s := hreach.trans hsteps.any
  have hlookup (pid : Nat) (p : Proc R) (hp : s.At pid p) (hlooks : p.looksUp = some t) :
      s.shared.notifier.sink = .opened := hend.found hreach' hp hlooks
  refine ⟨fun r hused => ⟨hend.heard.reporting hreach' hused, status_of_used hreach' hused,
    fun hdone => ?_⟩, fun hdropped => ?_, hlookup⟩
  · have hmsg : s.shared.messagesFor t = [cfg.report t r] := by
      refine hend.heard.reported_of_done hreach' hend.well hused hdone fun pid p hp hlooks => ?_
      have hopened := hlookup pid p hp hlooks
      rw [(silent_of_done hreach' hend.well hdone).1] at hopened
      cases hopened
    have hnone : s₀.shared.messagesFor t = [] := unreported_of_unused hreach fun r hused => by
      have hlt := lt_of_settled hreach (t := t) (by rw [hused]; nofun)
      omega
    exact ⟨hmsg, fun h hmem => told_once hreach hmem hnone hsteps hend.well hdone hmsg⟩
  · refine unreported_of_unused hreach' fun r hused => ?_
    rw [hdropped] at hused
    cases hused

/-- A pool with a registered handler. -/
def withHandler : Pool FairSemaphore Nat :=
  (poolMachine FairSemaphore Nat (.manager 1 1 "pool")).after sparesWorker
    (.call (.addHandler 0) :: stepping [1, 1])
    (poolMachine FairSemaphore Nat (.manager 1 1 "pool")).init

/-- A task runs, the last handle is dropped, and the worker drains its queue and calls the
handler, which panics. -/
def notified : Pool FairSemaphore Nat :=
  (poolMachine FairSemaphore Nat (.manager 1 1 "pool")).after (inTime 0)
    (.call (.submit 0 ∅ (.ready 7)) :: stepping [3, 3, 3, 3, 3, 3, 3, 3] ++
      stepping [0, 0, 0, 0, 0, 0, 0, 0, 0] ++ stepping [4, 4, 4, 4, 4, 4] ++
      .call (.dropManager 0) :: stepping [5, 5, 5, 5, 5, 5] ++
      stepping [2, 2] ++ .run (.panic false) 2 :: stepping [2, 2]) withHandler

theorem completion_notified_once_notified :
    notified.shared.messagesFor 0 = [⟨"pool", 0, .success⟩] ∧
      ToldOnce (.manager 1 1 "pool") 1 0 (.ok 7) notified := by
  have hresult := (completion_notified_once FairSemaphore Nat (.manager 1 1 "pool") 0 withHandler
    notified (Machine.steps_after _ _ _ _) (by decide) (by decide) (by decide)
    (Machine.steps_after _ _ _ _)).1 (.ok 7) rfl
  obtain ⟨hmsg, htold⟩ := hresult.2.2 rfl
  exact ⟨hmsg, htold 1 (by decide)⟩

/-- A dispatcher finds a task cancelled and settles it; the last handle is dropped before
the dispatcher looks the sender up, and the worker ends. -/
def settledUnheard : Pool FairSemaphore Nat :=
  (poolMachine FairSemaphore Nat (.manager 1 1 "pool")).after
    (fun s e => sinkOutlasts 0 s e && calmTask 0 s)
    (.call (.submit 0 ∅ (.ready 7)) :: stepping [3, 3, 3, 3, 3, 3, 3, 3] ++ .call (.cancel 0) ::
      stepping [0, 0, 0, 0, 0, 0, 0] ++ .call (.dropManager 0) :: stepping [4, 4, 4, 4, 4, 4] ++
      stepping [0, 0, 2]) withHandler

/-- A second handler is registered. -/
def withTwoHandlers : Pool FairSemaphore Nat :=
  (poolMachine FairSemaphore Nat (.manager 1 1 "pool")).after sparesWorker
    (.call (.addHandler 0) :: stepping [3, 3]) withHandler

/-- A task runs and is reported; the first handler panics when it is called for it, and so
does the destructor of its payload. -/
def toldByHalf : Pool FairSemaphore Nat :=
  (poolMachine FairSemaphore Nat (.manager 1 1 "pool")).after
    (fun s e => sinkOutlasts 0 s e && calmTask 0 s && sinkAwaitsLookup 0 s e)
    (.call (.submit 0 ∅ (.ready 7)) :: stepping [4, 4, 4, 4, 4, 4, 4, 4] ++
      stepping [0, 0, 0, 0, 0, 0, 0, 0, 0] ++ stepping [5, 5, 5, 5, 5, 5] ++
      stepping [2, 2] ++ [.run (.panic true) 2]) withTwoHandlers

/-- A task has got its result, and no handler is told; another one was reported, and the
panic of one handler keeps it from the other. -/
theorem cancelled_task_goes_unreported :
    let M := poolMachine FairSemaphore Nat (.manager 1 1 "pool")
    (M.Reachable Machine.anyStep withHandler ∧
      withHandler.shared.notifier.handlers = [1] ∧ withHandler.shared.nextTaskId = 0 ∧
      withHandler.shared.notifier.sink = .opened ∧
      M.Steps (fun s e => (sinkOutlasts 0 s e && calmTask 0 s) = true) withHandler
        settledUnheard ∧
      (settledUnheard.shared.tasks 0).sender = .used (.error .taskCancelled) ∧
      settledUnheard.shared.messagesFor 0 = [] ∧
      settledUnheard.shared.notifier.workerDone = true ∧
      settledUnheard.shared.notifier.handed 1 = []) ∧
    M.Reachable Machine.anyStep withTwoHandlers ∧
      withTwoHandlers.shared.notifier.handlers = [1, 3] ∧
      withTwoHandlers.shared.nextTaskId = 0 ∧ withTwoHandlers.shared.notifier.sink = .opened ∧
      M.Steps (fun s e =>
        (sinkOutlasts 0 s e && calmTask 0 s && sinkAwaitsLookup 0 s e) = true) withTwoHandlers
        toldByHalf ∧
      (toldByHalf.shared.tasks 0).sender = .used (.ok 7) ∧
      toldByHalf.shared.messagesFor 0 = [⟨"pool", 0, .success⟩] ∧
      toldByHalf.shared.notifier.workerDone = true ∧
      toldByHalf.shared.notifier.handed 3 = [] :=
  ⟨⟨(Machine.steps_after _ _ _ _).any, by decide, by decide, by decide,
    Machine.steps_after _ _ _ _, rfl, by decide, by decide, by decide⟩,
    (Machine.steps_after _ _ _ _).any.trans (Machine.steps_after _ _ _ _).any, by decide,
    by decide, by decide, Machine.steps_after _ _ _ _, rfl, by decide, by decide, by decide⟩

/-! ## Work that outlives the last handle -/

/-- In every run in which a handler is registered before task `t` is submitted, the
sender of `t` is not looked up in a closed sink, its wrapper does not unwind and no
panic ends the worker before `t` was reported: a result of `t`, be it settled by a
dispatcher or by its wrapper, was reported with its own status or a process is about to
report it, and the wrapper of `t` has a sender until `t` was reported. After a step
that breaks this condition no message for `t` is ever sent. -/
theorem started_task_reported (σ R : Type) [Semaphore σ] (cfg : PoolConfig) (t : Nat) :
    let M := poolMachine σ R cfg
    ∀ s₀ : Pool σ R, M.Reachable (fun s e => sparesWorker s e = true) s₀ →
      s₀.shared.notifier.handlers ≠ [] → s₀.shared.nextTaskId ≤ t →
      (∀ s, M.Steps (fun s e => staysHeard t s e = true) s₀ s →
        (∀ r, (s.shared.tasks t).sender = .used r → Shared.Reporting cfg t r s) ∧
          ∀ pid w, s.At pid (.wrapper w) → w.task = t →
            (w.pc.unreported = true ∧ w.sender = true) ∨
              ∃ r, (s.shared.tasks t).sender = .used r ∧
                s.shared.messagesFor t = [cfg.report t r]) ∧
        ∀ s s' s'' e, M.Steps Machine.anyStep s₀ s → staysHeard t s e = false →
          M.step s e = some s' → M.Steps Machine.anyStep s' s'' →
          s''.shared.messagesFor t = [] := by
  intro M s₀ hspared hhandlers hnew
  have hreach := hspared.any
  obtain ⟨h, hmem⟩ := List.exists_mem_of_ne_nil _ hhandlers
  refine ⟨fun s hsteps => ?_, fun s s' s'' e hsteps hbreaks hstep hafter => ?_⟩
  · have hheard := (Heard.of_unsubmitted hreach hmem hnew).steps hreach
      (.inl (worker_well hspared)) hsteps
    have hreach' : M.Reachable Machine.anyStep s := hreach.trans hsteps.any
    exact ⟨fun r hused => hheard.reporting hreach' hused,
      fun pid w hw ht => hheard.started hreach' hw ht⟩
  · have hreach' : M.Reachable Machine.anyStep s := hreach.trans hsteps
    simp only [staysHeard, Bool.and_eq_false_iff, Bool.or_eq_false_iff,
      decide_eq_false_iff_not, Nat.not_lt, Nat.le_zero] at hbreaks
    rcases hbreaks with hheeds | ⟨hpanics, hunreported⟩
    · cases e with
      | run b pid =>
        obtain ⟨p, sh, p', sp, hp, hrun, rfl⟩ := Program.step_run hstep
        have hmute := Mute.of_unheeded (t := t) hreach' hp hrun (by simpa [heeds, hp] using hheeds)
        exact hmute.unreported (hreach'.tail trivial hstep) hafter
      | call c => cases hheeds
    · -- the worker that a panic has ended takes no message any more
      obtain ⟨hdone, hsent⟩ := done_of_panic hpanics hstep
      have hnone : s''.shared.reports t = 0 := by
        rw [Shared.reports_eq ((Pool.sent_of_done hdone hafter).trans hsent), hunreported]
      exact List.length_eq_zero_iff.mp hnone

/-- A dispatcher has looked the sender up when the last handle is dropped, and its task
runs after that. -/
def startedInTime : Pool FairSemaphore Nat :=
  (poolMachine FairSemaphore Nat (.manager 1 1 "pool")).after (staysHeard 0)
    (.call (.submit 0 ∅ (.ready 7)) :: stepping [3, 3, 3, 3, 3, 3, 3, 3] ++
      stepping [0, 0, 0, 0, 0, 0, 0, 0] ++ .call (.dropManager 0) ::
      stepping [4, 4, 4, 4, 4, 4] ++ stepping [0, 5, 5, 5, 5]) withHandler

theorem started_task_reported_in_time :
    startedInTime.shared.notifier.sink = .closed ∧
      ∃ r, (startedInTime.shared.tasks 0).sender = .used r ∧
        startedInTime.shared.messagesFor 0 = [⟨"pool", 0, .ofResult r⟩] := by
  have hstarted := ((started_task_reported FairSemaphore Nat (.manager 1 1 "pool") 0 withHandler
    (Machine.steps_after _ _ _ _) (by decide) (by decide)).1 startedInTime
    (Machine.steps_after _ _ _ _)).2 5 ⟨0, 0, false, .closing⟩ rfl rfl
  refine ⟨by decide, hstarted.resolve_left fun h => ?_⟩
  cases h.1

/-- The last handle is dropped between the dequeue of a task and the lookup of its
sender; then the task is started and runs to its end. -/
def startedUnheard : Pool FairSemaphore Nat :=
  (poolMachine FairSemaphore Nat (.manager 1 1 "pool")).after unshut
    (.call (.submit 0 ∅ (.ready 7)) :: stepping [3, 3, 3, 3, 3, 3, 3, 3] ++
      stepping [0, 0, 0, 0, 0, 0, 0] ++ .call (.dropManager 0) :: stepping [4, 4, 4, 4, 4, 4] ++
      stepping [0, 0] ++ stepping [5, 5, 5, 5, 5, 5]) withHandler

/-- Without an explicit shutdown a started task goes unreported. -/
theorem started_task_goes_unreported :
    (poolMachine FairSemaphore Nat (.manager 1 1 "pool")).Reachable Machine.anyStep withHandler ∧
      withHandler.shared.notifier.handlers = [1] ∧ withHandler.shared.nextTaskId = 0 ∧
      (poolMachine FairSemaphore Nat (.manager 1 1 "pool")).Steps
        (fun s e => unshut s e = true) withHandler startedUnheard ∧
      startedUnheard.At 5 (.wrapper ⟨0, 0, false, .ended⟩) ∧
      (startedUnheard.shared.tasks 0).sender = .used (.ok 7) ∧
      startedUnheard.shared.messagesFor 0 = [] :=
  ⟨(Machine.steps_after _ _ _ _).any, by decide, by decide, Machine.steps_after _ _ _ _,
    rfl, rfl, by decide⟩

/-! ## Four instants: registration, spawn, completion, delivery -/

/-- What a handler observes. A task whose result is undecided when handler `h` has been
registered, and which was not spawned without a sender before, is reported once if its
sender is not looked up in a closed sink, its wrapper does not unwind and no panic ends
the worker, and `h` is then called for it once, at the latest when the worker has
drained its queue. A handler that is pushed to the list when the worker has taken the
message of a task and has it no longer in hand, on its way to the list, is never called
for it. A task that was spawned without a sender is never reported. -/
theorem handler_observes (σ R : Type) [Semaphore σ] (cfg : PoolConfig) (h t : Nat) :
    let M := poolMachine σ R cfg
    (∀ s₁ s : Pool σ R, M.Reachable (fun s e => sparesWorker s e = true) s₁ →
      h ∈ s₁.shared.notifier.handlers → (s₁.shared.tasks t).sender = .live →
      (∀ pid p, s₁.At pid p → p.captures = some t → p.senders = 1) →
      (∀ pid w, s₁.At pid (.wrapper w) → w.task = t → w.pc.unreported = true) →
      M.Steps (fun s e => (heeds t s e && sparesWorker s e) = true) s₁ s →
      ∀ r, (s.shared.tasks t).sender = .used r →
        Shared.Reporting cfg t r s ∧
          (s.shared.notifier.workerDone = true →
            (∀ pid p, s.At pid p → p.looksUp ≠ some t) → ToldOnce cfg h t r s)) ∧
      (∀ (s₀ s₁ s : Pool σ R) (c : AddHandlerCall), M.Reachable Machine.anyStep s₀ →
        s₀.At h (.addHandler c) → c.pc = .push → M.step s₀ (.run .step h) = some s₁ →
        (∃ msg ∈ s₀.shared.notifier.sent.take s₀.shared.notifier.taken, msg.core = t ∧
          ∀ pid n, s₀.At pid (.notifier n) → n.pc ≠ .lock msg) →
        M.Steps Machine.anyStep s₁ s → ToldNothing h t s) ∧
      (∀ (s₁ s : Pool σ R) (pid : Nat) (w : Wrapper R), M.Reachable Machine.anyStep s₁ →
        s₁.At pid (.wrapper w) → w.task = t → w.pc.unreported = true → w.sender = false →
        M.Steps Machine.anyStep s₁ s → s.shared.messagesFor t = []) := by
  intro M
  refine ⟨fun s₁ s hspared hmem hlive hcaptured hunwind hsteps r hused => ?_,
    fun s₀ s₁ s c hreach hc hpc hstep htaken hsteps => ?_,
    fun s₁ s pid w hreach hw ht hun hsender hsteps => ?_⟩
  · have hreach := hspared.any
    have hreach' : M.Reachable Machine.anyStep s := hreach.trans hsteps.any
    have hwell := worker_well hspared
    have hwell' := hwell.steps (hsteps.mono fun s e hok => (Bool.and_eq_true_iff.mp hok).2)
    have hheard := (Heard.of_live hreach (sink_of_handler hreach hmem) hlive hcaptured
      hunwind).steps hreach (.inl hwell) (hsteps.mono fun s e hok => by
        simp only [Bool.and_eq_true] at hok
        simp [staysHeard, hok])
    refine ⟨hheard.reporting hreach' hused, fun hdone hlooked => ?_⟩
    have hnone : s₁.shared.messagesFor t = [] := unreported_of_unused hreach fun r' hused' => by
      rw [hlive] at hused'
      cases hused'
    exact told_once hreach hmem hnone hsteps hwell' hdone
      (hheard.reported_of_done hreach' hwell' hused hdone hlooked)
  · obtain ⟨p, sh, p', sp, hp, hrun, rfl⟩ := Program.step_run hstep
    obtain rfl := Option.some.inj (hp.symm.trans hc)
    change Proc.run cfg .step h s₀.shared (.addHandler c) = _ at hrun
    obtain ⟨k, hlogged, hpast⟩ := Logged.pushed hreach hc hpc hrun
    obtain ⟨msg, hmsg, hcore, hhand⟩ := htaken
    refine told_nothing (hreach.tail trivial hstep) hlogged ⟨msg, ?_, hcore⟩ hsteps
    have hbefore := hpast msg hmsg hhand
    obtain ⟨more, hmore⟩ := (Proc.queue_of_run hrun).grows
    rw [Threads.update_shared, hmore, List.take_append, List.mem_append]
    exact .inl hbefore
  · have hmuffled : (Proc.wrapper w).Muffled t s₁.shared := by
      refine .inr ⟨?_, ?_⟩
      · simp [Proc.captures, hun, ht]
      · simp [Proc.senders, hsender]
    have hmute : Mute t s₁ := .inl ⟨pid, _, hw, hmuffled⟩
    exact hmute.unreported hreach hsteps

/-- A second handler is registered while a task runs. -/
def registeredMeanwhile : Pool FairSemaphore Nat :=
  (poolMachine FairSemaphore Nat (.manager 1 1 "pool")).after sparesWorker
    (.call (.submit 0 ∅ (.ready 7)) :: stepping [3, 3, 3, 3, 3, 3, 3, 3] ++
      stepping [0, 0, 0, 0, 0, 0, 0, 0, 0] ++ .call (.addHandler 0) :: stepping [5, 5]) withHandler

/-- The task ends and the worker drains its queue. -/
def observed : Pool FairSemaphore Nat :=
  (poolMachine FairSemaphore Nat (.manager 1 1 "pool")).after
    (fun s e => heeds 0 s e && sparesWorker s e)
    (stepping [4, 4, 4, 4, 4, 4] ++ .call (.dropManager 0) :: stepping [6, 6, 6, 6, 6, 6] ++
      stepping [2, 2, 2, 2, 2, 2]) registeredMeanwhile

/-- The process is no wrapper that is past its report. -/
def Proc.reportsLater : Proc R → Bool
  | .wrapper w => w.pc.unreported
  | _ => true

theorem handler_observes_running :
    (registeredMeanwhile.shared.tasks 0).sender = .live ∧
      ToldOnce (.manager 1 1 "pool") 5 0 (.ok 7) observed := by
  have hall {f : Proc Nat → Bool} {s : Pool FairSemaphore Nat} (hs : s.procs.all f = true)
      (pid : Nat) (p : Proc Nat) (hp : s.At pid p) : f p = true :=
    List.all_eq_true.mp hs p (List.mem_of_getElem? hp)
  have htold := (handler_observes FairSemaphore Nat (.manager 1 1 "pool") 5 0).1
    registeredMeanwhile observed
    ((Machine.steps_after _ _ _ _).trans (Machine.steps_after _ _ _ _)) (by decide) rfl
    (fun pid p hp hcaptures => ?_) (fun pid w hw _ => ?_) (Machine.steps_after _ _ _ _) (.ok 7) rfl
  · refine ⟨rfl, htold.2 rfl fun pid p hp => ?_⟩
    have hp' := hall (f := fun p => p.looksUp != some 0) (by decide) pid p hp
    simpa using hp'
  · have hp' := hall (f := fun p => p.captures != some 0 || p.senders == 1) (by decide) pid p hp
    simpa [hcaptures] using hp'
  · exact hall (f := Proc.reportsLater) (by decide) pid (.wrapper w) hw

/-- The first handler is registered while a task runs. -/
def registeredAfterSpawn : Pool FairSemaphore Nat :=
  let M := poolMachine FairSemaphore Nat (.manager 1 1 "pool")
  M.after (fun _ _ => true)
    (.call (.submit 0 ∅ (.ready 7)) :: stepping [1, 1, 1, 1, 1, 1, 1, 1] ++
      stepping [0, 0, 0, 0, 0, 0, 0, 0, 0] ++ .call (.addHandler 0) :: stepping [3, 3]) M.init

/-- The task ends. -/
def endedUnheard : Pool FairSemaphore Nat :=
  (poolMachine FairSemaphore Nat (.manager 1 1 "pool")).after (fun _ _ => true)
    (stepping [2, 2, 2, 2, 2, 2]) registeredAfterSpawn

/-- The last handle is dropped and the worker ends. -/
def drainedUnheard : Pool FairSemaphore Nat :=
  (poolMachine FairSemaphore Nat (.manager 1 1 "pool")).after (fun _ _ => true)
    (.call (.dropManager 0) :: stepping [5, 5, 5, 5, 5, 5] ++ stepping [4]) endedUnheard

/-- A task ends with one handler registered. -/
def completedFirst : Pool FairSemaphore Nat :=
  (poolMachine FairSemaphore Nat (.manager 1 1 "pool")).after (fun _ _ => true)
    (.call (.submit 0 ∅ (.ready 7)) :: stepping [3, 3, 3, 3, 3, 3, 3, 3] ++
      stepping [0, 0, 0, 0, 0, 0, 0, 0, 0] ++ stepping [4, 4, 4, 4, 4, 4]) withHandler

/-- A second handler is registered while the message is queued. -/
def registeredLate : Pool FairSemaphore Nat :=
  (poolMachine FairSemaphore Nat (.manager 1 1 "pool")).after (fun _ _ => true)
    (.call (.addHandler 0) :: stepping [5, 5] ++ stepping [2, 2, 2, 2]) completedFirst

/-- A task that ends after the first registration goes unobserved, and a later handler
is called for a task whose completion was recorded before. -/
theorem handler_misses_and_overhears :
    ((poolMachine FairSemaphore Nat (.manager 1 1 "pool")).Reachable Machine.anyStep
        registeredAfterSpawn ∧
      registeredAfterSpawn.shared.notifier.handlers = [3] ∧
      (registeredAfterSpawn.shared.tasks 0).sender = .live ∧
      (poolMachine FairSemaphore Nat (.manager 1 1 "pool")).Steps Machine.anyStep
        registeredAfterSpawn endedUnheard ∧
      (endedUnheard.shared.tasks 0).sender = .used (.ok 7) ∧
      endedUnheard.shared.notifier.sink = .opened ∧
      (poolMachine FairSemaphore Nat (.manager 1 1 "pool")).Steps Machine.anyStep endedUnheard
        drainedUnheard ∧
      drainedUnheard.shared.notifier.workerDone = true ∧
      drainedUnheard.shared.notifier.handed 3 = []) ∧
    (poolMachine FairSemaphore Nat (.manager 1 1 "pool")).Reachable Machine.anyStep completedFirst ∧
      completedFirst.shared.messagesFor 0 = [⟨"pool", 0, .success⟩] ∧
      completedFirst.procs.length = 5 ∧
      (poolMachine FairSemaphore Nat (.manager 1 1 "pool")).Steps Machine.anyStep completedFirst
        registeredLate ∧
      registeredLate.shared.notifier.handed 5 = [⟨0, "pool", ∅, .success⟩] :=
  ⟨⟨(Machine.steps_after _ _ _ _).any, by decide, rfl, (Machine.steps_after _ _ _ _).any, rfl,
    by decide, (Machine.steps_after _ _ _ _).any, by decide, by decide⟩,
    (Machine.steps_after _ _ _ _).any.trans (Machine.steps_after _ _ _ _).any, by decide, by decide,
    (Machine.steps_after _ _ _ _).any, by decide⟩

end FuturesOrchestra
