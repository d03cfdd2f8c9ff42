import FuturesOrchestra.Proofs.Handles
import FuturesOrchestra.Proofs.Messages
import FuturesOrchestra.Proofs.Settlement
import FuturesOrchestra.Proofs.Shutdown

/-!
# Panics stay with their task

A dispatcher loop leaves when it is told to, because the token is cancelled or every
queue handle is closed, and for no other reason but a destructor that panics under it.
What a process has put into the registry is what the active count counts. A wrapper
that unwinds gives its permit back but keeps its place in the registry, so that the
count is right as long as no wrapper unwinds.
-/

namespace FuturesOrchestra

open Interleaving

variable {σ R : Type} {cfg : PoolConfig} {pid : Nat} {sh sh' : Shared σ R}
  {sp : Option (Proc R)} {p p' : Proc R}

/-! ## Why a loop leaves -/

/-- The loop is on its way out, or has exited. -/
def LoopPc.leaving : LoopPc → Bool
  | .exit .. | .drain | .exited => true
  | _ => false

/-- The dispatchers are told to end: the token is cancelled, or nobody holds an open
queue handle. -/
def Shared.ending (sh : Shared σ R) : Bool := sh.token || sh.queueSenders == 0

/-- The next step of the loop drops a task that was cancelled in the queue, and the
destructor panics. -/
def DispatcherLoop.struck (sh : Shared σ R) (d : DispatcherLoop) : Bool :=
  match d.pc with
  | .cancelDrop _ t => (sh.tasks t).future.dropPanics
  | _ => false

variable [Semaphore σ]

theorem LoopStep.leaves {d d' : DispatcherLoop} (h : LoopStep cfg pid sh d sh' d' sp)
    (hleaving : d'.pc.leaving = true) :
    d.pc.leaving = true ∨ sh.ending = true ∨ d.struck sh = true := by
  cases h with
  | topStop _ htoken | acquireStop _ htoken | recheckStop _ htoken | recvDiscard _ _ _ htoken
  | recvStop _ htoken | guardStop _ _ htoken =>
    exact .inr (.inl (by rw [Shared.ending, htoken, Bool.true_or]))
  | recvClosed _ _ hsenders =>
    exact .inr (.inl (by rw [Shared.ending, hsenders, beq_self_eq_true, Bool.or_true]))
  | cancelPanic hpc hpanics => exact .inr (.inr (by rw [DispatcherLoop.struck, hpc]; exact hpanics))
  | exitPermit hpc | exitHand hpc | exitReceiver hpc | exitLast hpc | drain hpc | drained hpc =>
    exact .inl (by rw [hpc]; rfl)
  | _ => cases hleaving

omit [Semaphore σ] in
theorem DropStep.queueSenders_le {closed closed' : Bool} {pc pc' : DropPc}
    (h : DropStep sh closed pc sh' closed' pc') : sh'.queueSenders ≤ sh.queueSenders := by
  cases h with
  | close | release | releaseLast =>
    cases closed
    · exact Nat.sub_le _ _
    · exact le_rfl
  | _ => exact le_rfl

/-- A process never opens a queue handle. -/
theorem Proc.queueSenders_le_of_run {b : Signal}
    (hrun : Proc.run cfg b pid sh p = some (sh', p', sp)) :
    sh'.queueSenders ≤ sh.queueSenders := by
  rcases Proc.split_of_run hrun with ⟨c, c', rfl, rfl, hstep⟩ | ⟨d, d', rfl, rfl, hstep⟩ |
    ⟨w, w', rfl, rfl, hstep, -⟩ | hstep
  · exact hstep.keepsHandles.queueSenders.le
  · exact hstep.keepsHandles.queueSenders.le
  · exact hstep.keepsHandles.queueSenders.le
  · cases hstep with
    | shutdown hstep =>
      cases hstep with
      | closeGraceful | closeForceful => exact Nat.sub_le _ _
      | dropSelf _ hdrop => exact hdrop.queueSenders_le
      | _ => exact le_rfl
    | drop _ hdrop => exact hdrop.queueSenders_le
    | labelCancel hstep => cases hstep <;> exact le_rfl
    | addHandler hstep => cases hstep <;> exact le_rfl
    | notifier hstep => cases hstep <;> exact le_rfl

section Runs

variable {ok : Pool σ R → PoolEvent R → Prop} {s : Pool σ R}

theorem ending_of_run {b : Signal} (hrun : Proc.run cfg b pid sh p = some (sh', p', sp))
    (hending : sh.ending = true) : sh'.ending = true := by
  simp only [Shared.ending, Bool.or_eq_true, beq_iff_eq] at hending ⊢
  refine hending.imp (Shared.Evolves.proc (Proc.step_of_run hrun)).token fun hzero => ?_
  have hle := Proc.queueSenders_le_of_run hrun
  rw [hzero] at hle
  exact Nat.le_zero.mp hle

/-- When every queue handle is closed nobody can clone a manager handle. -/
theorem queueSenders_of_enter {c : Call R} (hreach : (poolMachine σ R cfg).Reachable ok s)
    (hcall : c.enter s.shared = some (sh', sp)) (hzero : s.shared.queueSenders = 0) :
    sh'.queueSenders = 0 := by
  have hsenders := (references hreach).queueSenders
  revert hcall
  fun_cases Call.enter s.shared c
  all_goals rintro ⟨⟩
  case case1 husable =>
    have hpos := Shared.handles_pos husable
    rw [hzero] at hsenders
    omega
  all_goals exact hzero

theorem ending_of_enter {c : Call R} (hreach : (poolMachine σ R cfg).Reachable ok s)
    (hcall : c.enter s.shared = some (sh', sp)) (hending : s.shared.ending = true) :
    sh'.ending = true := by
  simp only [Shared.ending, Bool.or_eq_true, beq_iff_eq] at hending ⊢
  exact hending.imp (Call.enter_quiet hcall).1.token (queueSenders_of_enter hreach hcall)

/-- A loop leaves only when it is told to, if no destructor panics under it before. -/
theorem leaving_ending
    (hok : ∀ {s : Pool σ R} {b pid d}, ok s (.run b pid) → s.At pid (.loop d) →
      d.struck s.shared = true → s.shared.ending = true)
    (h : (poolMachine σ R cfg).Reachable ok s) {d : DispatcherLoop} (hd : s.At pid (.loop d))
    (hleaving : d.pc.leaving = true) : s.shared.ending = true := by
  refine Pool.invariant (I := fun s => ∀ pid d, s.At pid (.loop d) → d.pc.leaving = true →
    s.shared.ending = true) .refl ?_ ?_ h ?_ pid d hd hleaving
  · intro s b pid p sh p' sp _ hs hgood hp hrun qid d hq hleaving
    rw [Threads.update_shared]
    refine ending_of_run hrun ?_
    rcases Threads.update_getElem? hp hq with ⟨-, rfl⟩ | ⟨-, hold⟩ | ⟨-, hnew⟩
    · obtain ⟨d₀, rfl, hstep⟩ := Proc.loop_of_run hrun
      rcases hstep.leaves hleaving with hbefore | hending | hstruck
      · exact hs pid d₀ hp hbefore
      · exact hending
      · exact hok hgood hp hstruck
    · exact hs qid d hold hleaving
    · rcases Proc.started_of_run (hnew ▸ hrun) with ⟨w, heq⟩ | heq <;> cases heq
  · intro s c sh sp hreach hs _ hcall qid d hq hleaving
    rw [Threads.spawn_shared]
    refine ending_of_enter hreach hcall ?_
    rcases Threads.spawn_getElem? hq with hold | ⟨-, hnew⟩
    · exact hs qid d hold hleaving
    · cases (Call.enter_quiet hcall).2 _ hnew with
      | bystander hby => exact hby.elim
  · intro pid d hd hleaving
    cases (Pool.init_loop hd).2
    cases hleaving

/-! ## What the active count counts -/

/-- Whether the process is registered with a task, as a weight. -/
def Proc.listed (p : Proc R) : Nat := p.registered.isSome.toNat

omit [Semaphore σ] in
theorem Proc.listed_bystander (hp : p.bystander) : p.listed = 0 := by
  cases p <;> first | rfl | exact hp.elim

/-- A step of a process of the strict pool, in the balance of its registry. -/
theorem Proc.Step.listed (hstrict : cfg.kind = .strict)
    (hreach : (poolMachine σ R cfg).Reachable ok s) (hp : s.At pid p)
    (h : Proc.Step cfg pid s.shared p sh' p' sp) :
    sh'.active.len + p.listed = s.shared.active.len + p'.listed + Threads.started Proc.listed sp := by
  have hregistry := registry hreach
  cases h with
  | submit hstep =>
    cases hstep with
    | acquired hkind | route hkind | insertCount hkind | insert hkind | lookup hkind
    | spawn hkind | createScan hkind | sendClosedRlxd hkind | selectAcquiredRlxd hkind
    | sendRoute hkind =>
      rw [hstrict] at hkind
      cases hkind
    | refuse hpc | reject hpc | abandon hpc =>
      rcases hpc with hpc | hpc <;> simp [Proc.listed, Proc.registered, SubmitPc.registered, hpc]
    | _ => simp [Proc.listed, Proc.registered, SubmitPc.registered, *]
  | loop hstep =>
    cases hstep with
    | @insert t active slot hkind hpc hinsert =>
      have hlen := ActiveSlots.len_insert hregistry.valid t
      rw [hinsert] at hlen
      simp [Proc.listed, Proc.registered, LoopPc.registered, hpc, hlen]
    | insertRlxd hkind | topRlxd hkind | recheckRlxd hkind | recvRlxd hkind | recvDiscard hkind
    | precheckRlxd hkind | insertCount hkind =>
      rw [hstrict] at hkind
      cases hkind
    | spawn hpc =>
      simp [Proc.listed, Proc.registered, LoopPc.registered, WrapperPc.left, hpc]
    | _ => simp [Proc.listed, Proc.registered, LoopPc.registered, *]
  | @wrapper w _ w' hstep =>
    cases hstep with
    | remove hkind hpc =>
      have hreg : (Proc.wrapper w).registered = some (w.task, w.slot) := by
        simp [Proc.registered, WrapperPc.left, hpc]
      have hslot := hregistry.listed pid _ _ _ hp hreg
      simp only [Shared.holds, hkind] at hslot
      have hlen := ActiveSlots.len_remove hregistry.valid hslot
      simp [Proc.listed, Proc.registered, WrapperPc.left, hpc, hlen]
    | finish hkind | countOut hkind | release hkind | releasePanic hkind =>
      rw [hstrict] at hkind
      cases hkind
    | _ => simp [Proc.listed, Proc.registered, WrapperPc.left, *]
  | bystander hby hby' hstep =>
    have hstarted : Threads.started Proc.listed sp = 0 :=
      Proc.started_eq_zero Proc.listed_bystander (fun _ _ _ => rfl)
        fun q hsp => .bystander (hstep.2 q hsp)
    rw [hstep.1.active, Proc.listed_bystander hby, Proc.listed_bystander hby', hstarted]

end Runs

/-! ## Isolation -/

/-- `active_task_count`. -/
def Shared.activeTaskCount (cfg : PoolConfig) (sh : Shared σ R) : Nat :=
  match cfg.kind with
  | .strict => sh.active.len
  | .rlxd => (sh.shards.map (·.len)).sum

/-- The process is a wrapper that is gone: it has run to its end or has unwound. -/
def Proc.gone : Proc R → Bool
  | .wrapper w => w.pc.over
  | _ => false

/-- The concurrency permits the process holds, if it is not gone. -/
def Proc.holding (p : Proc R) : Nat := if p.gone then 0 else p.permits

/-- The next step of the wrapper runs a destructor that panics, and leaves the registry
entry behind. -/
def Wrapper.struck (kind : PoolKind) (sh : Shared σ R) (w : Wrapper R) : Bool :=
  match w.pc with
  | .closing => kind == .strict && (sh.tasks w.task).future.dropPanics
  | _ => w.unwinds sh

/-- The event runs no destructor that panics in a dispatcher loop that was not told to end. -/
def sparesDispatchers (s : Pool σ R) : PoolEvent R → Bool
  | .run _ pid => match s.procs[pid]? with
    | some (.loop d) => !d.struck s.shared || s.shared.ending
    | _ => true
  | .call _ => true

theorem WrapperStep.unwound {w w' : Wrapper R} (h : WrapperStep cfg sh w sh' w')
    (hunwound : (Proc.wrapper w').unwound = true) :
    (Proc.wrapper w).unwound = true ∨ w.struck cfg.kind sh = true := by
  obtain ⟨task, slot, sender, pc⟩ := w
  cases h with
  | @discardUnwind value hpc hcancelled hdrop =>
    obtain rfl : pc = .resolved value := hpc
    refine .inr ?_
    simp only [Wrapper.struck, Wrapper.unwinds, Bool.and_eq_true, Bool.or_eq_true]
    exact ⟨hcancelled.imp id fun hnone => by rw [hnone]; rfl, hdrop⟩
  | @sendUnwind result hpc hdrop =>
    obtain rfl : pc = .outcome result := hpc
    exact .inr hdrop
  | closePanic hkind hpc hdrop =>
    obtain rfl : pc = .closing := hpc
    refine .inr ?_
    simp only [Wrapper.struck, hkind, beq_self_eq_true, Bool.true_and]
    exact hdrop
  | unwind hpc | unwindSent hpc =>
    obtain rfl : pc = _ := hpc
    exact .inl rfl
  | _ => cases hunwound

section Runs

variable {s : Pool σ R}

end Runs

/-- A future whose destructor panics after it has returned a value. -/
def panicsWhenDropped : TaskFuture Nat := ⟨fun _ => .ready 7, true, false, false⟩

end FuturesOrchestra
