import FuturesOrchestra.Proofs.Steps

/-!
# Concurrency permits are conserved

Every process holds a number of concurrency permits that can be read off its
program point. A step of a `submit` call, of a dispatcher loop or of a wrapper
moves permits between the process, the gate and the wrapper it starts, and never
creates or loses one: the free permits and the held ones add up to the limit in
every reachable state. In the relaxed pool the in-flight counter of a shard is
balanced in the same way by the processes that are counted in it.
-/

namespace FuturesOrchestra

open Interleaving Semaphore

variable {σ R : Type} [Semaphore σ] {cfg : PoolConfig} {pid : Nat} {gate gate' : σ}
  {sh sh' : Shared σ R} {sp : Option (Proc R)}

/-! ## Who holds a permit -/

def SubmitPc.permits : SubmitPc → Nat
  | .route _ | .insertCount .. | .insert .. | .lookup .. | .spawn .. => 1
  | _ => 0

def LoopPc.permits : LoopPc → Nat
  | .recheck _ | .guard _ | .insertCount _ | .insert _ | .lookup .. | .spawn .. => 1
  | .recv p | .recvToken p | .precheck p _ | .cancelSend p _ | .cancelLookup p _
  | .cancelNotify p _ | .cancelDrop p _ | .exit p _ => p.toNat
  | _ => 0

def WrapperPc.permits : WrapperPc R → Nat
  | .remove | .ended | .crashed _ => 0
  | _ => 1

/-- The concurrency permits a process holds. -/
def Proc.permits : Proc R → Nat
  | .submit c => c.pc.permits
  | .loop d => d.pc.permits
  | .wrapper w => w.pc.permits
  | _ => 0

/-- The block of the wrapper was spawned and has not ended. The strict pool takes the entry of
the task out of the registry (`remove`) after the end of the block. -/
def WrapperPc.running : WrapperPc R → Nat
  | .poll | .selectCancelled | .resolved _ | .outcome _ | .settled _ | .closing | .finish
  | .release | .unwind _ => 1
  | .remove | .ended | .crashed _ => 0

/-- Counts the user futures that were spawned and whose wrapper has not ended. -/
def Proc.running : Proc R → Nat
  | .wrapper w => w.pc.running
  | _ => 0

theorem Proc.running_le_permits (p : Proc R) : p.running ≤ p.permits := by
  cases p with
  | wrapper w =>
    obtain ⟨_, _, _, pc⟩ := w
    cases pc <;> exact le_rfl
  | _ => exact Nat.zero_le _

theorem Proc.permits_bystander {p : Proc R} (h : p.bystander) : p.permits = 0 := by
  cases p <;> first | rfl | exact h.elim

/-! ## A step moves permits -/

theorem permits_acquired (h : pollAcquire pid gate = (gate', true)) :
    permits gate' + 1 = permits gate := by
  have htaken := pollAcquire_taken pid gate
  rw [h] at htaken
  exact (htaken rfl).1

theorem permits_pending (h : pollAcquire pid gate = (gate', false)) :
    permits gate' = permits gate := by
  have hpending := pollAcquire_pending pid gate
  rw [h] at hpending
  exact (hpending rfl).1

theorem SubmitStep.permits_kept {kind : PoolKind} {c c' : SubmitCall R}
    (h : SubmitStep kind pid sh c sh' c' sp) :
    permits sh'.concurrencyGate + c'.pc.permits + Threads.started Proc.permits sp =
      permits sh.concurrencyGate + c.pc.permits := by
  cases h with
  | acquired hkind hpc hgate =>
    have htaken := (tryAcquire_taken _ _ hgate).1
    simp [SubmitPc.permits, hpc]
    omega
  | refuse hpc | reject hpc | abandon hpc =>
    rcases hpc with hpc | hpc <;> simp [SubmitPc.permits, hpc]
  | spawn hkind hpc => simp [SubmitPc.permits, Proc.permits, WrapperPc.permits, hpc]
  | _ => simp [SubmitPc.permits, *]

theorem LoopStep.permits_kept {d d' : DispatcherLoop} (h : LoopStep cfg pid sh d sh' d' sp) :
    permits sh'.concurrencyGate + d'.pc.permits + Threads.started Proc.permits sp =
      permits sh.concurrencyGate + d.pc.permits := by
  cases h with
  | acquired hpc hgate =>
    have htaken := permits_acquired hgate
    simp [LoopPc.permits, hpc]
    omega
  | pending hpc hgate =>
    have hpending := permits_pending hgate
    simp [LoopPc.permits, hpc]
    omega
  | spawn hpc => simp [LoopPc.permits, Proc.permits, WrapperPc.permits, hpc]
  | _ => simp [LoopPc.permits, *]

theorem WrapperStep.permits_kept {w w' : Wrapper R} (h : WrapperStep cfg sh w sh' w') :
    permits sh'.concurrencyGate + w'.pc.permits = permits sh.concurrencyGate + w.pc.permits := by
  cases h <;> simp [WrapperPc.permits, *]

/-- In every run the free permits and the held ones add up to the limit. -/
theorem permits_conserved {ok : Pool σ R → PoolEvent R → Prop} {s : Pool σ R}
    (h : (poolMachine σ R cfg).Reachable ok s) :
    permits s.shared.concurrencyGate + s.tally Proc.permits = cfg.permits := by
  refine Pool.conserved (f := fun sh => permits sh.concurrencyGate) (k := fun _ => cfg.permits)
    ?_ ?_ ?_ ?_ Proc.permits_bystander (fun _ _ _ => rfl) h ?_
  · intro pid sh c sh' c' sp _ hstep
    have hkept := hstep.permits_kept
    simp only [Proc.permits]
    omega
  · intro pid sh d sh' d' sp _ hstep
    have hkept := hstep.permits_kept
    simp only [Proc.permits]
    omega
  · intro sh w sh' w' _ hstep
    have hkept := hstep.permits_kept
    simp only [Proc.permits]
    omega
  · intro sh sh' hquiet
    simp only [hquiet.concurrencyGate]
  · show permits (Semaphore.new cfg.permits) + (Pool.new σ R cfg).tally Proc.permits = cfg.permits
    rw [permits_new, Pool.tally_new (g := Proc.permits) fun _ => rfl, Nat.add_zero]

/-! ## The in-flight counters of the relaxed pool -/

/-- The in-flight counter of shard `i`. -/
def Shared.inFlight (sh : Shared σ R) (i : Nat) : Nat := ((sh.shards[i]?).map (·.inFlight)).getD 0

def SubmitPc.countedIn : SubmitPc → Option Nat
  | .insert _ shard | .lookup _ shard | .spawn _ shard _ => some shard
  | _ => none

def DispatcherLoop.countedIn (d : DispatcherLoop) : Option Nat :=
  match d.pc with
  | .insert _ => some d.lane
  | .lookup _ slot | .spawn _ slot _ => some slot
  | _ => none

/-- A wrapper that unwinds never counts itself out. -/
def Wrapper.countedIn (w : Wrapper R) : Option Nat :=
  match w.pc with
  | .release | .remove | .ended | .crashed false => none
  | _ => some w.slot

/-- The shard in which a process has counted its task in and not yet out. -/
def Proc.countedIn : Proc R → Option Nat
  | .submit c => c.pc.countedIn
  | .loop d => d.countedIn
  | .wrapper w => w.countedIn
  | _ => none

/-- Whether a process is counted in shard `i`. -/
def Proc.inShard (i : Nat) (p : Proc R) : Nat := if p.countedIn = some i then 1 else 0

omit [Semaphore σ] in
theorem Shared.inFlight_setShard {i shard : Nat} {r r' : DeferredRegistry Nat}
    (h : sh.shards[shard]? = some r) :
    (sh.setShard shard r').inFlight i = if shard = i then r'.inFlight else sh.inFlight i := by
  have hlt : shard < sh.shards.length := (List.getElem?_eq_some_iff.mp h).1
  by_cases hi : shard = i
  · subst hi
    simp [inFlight, hlt]
  · simp [inFlight, List.getElem?_set_ne hi, hi]

omit [Semaphore σ] in
theorem Shared.inFlight_of_getElem? {i : Nat} {r : DeferredRegistry Nat}
    (h : sh.shards[i]? = some r) : sh.inFlight i = r.inFlight := by
  simp [inFlight, h]

theorem SubmitStep.inShard {i : Nat} {c c' : SubmitCall R}
    (h : SubmitStep cfg.kind pid sh c sh' c' sp) :
    Proc.inShard i (.submit c') + Threads.started (Proc.inShard i) sp + sh.inFlight i =
      Proc.inShard i (.submit c) + sh'.inFlight i := by
  cases h with
  | insertCount hkind hpc hshard =>
    rw [Shared.inFlight_setShard hshard]
    split
    · next hi =>
      subst hi
      simp [Proc.inShard, Proc.countedIn, SubmitPc.countedIn, hpc, DeferredRegistry.count,
        Shared.inFlight_of_getElem? hshard, Nat.add_comm]
    · next hi => simp [Proc.inShard, Proc.countedIn, SubmitPc.countedIn, hpc, hi]
  | insert hkind hpc hshard =>
    rw [Shared.inFlight_setShard hshard]
    split
    · next hi =>
      subst hi
      simp [Proc.inShard, Proc.countedIn, SubmitPc.countedIn, hpc, DeferredRegistry.store,
        Shared.inFlight_of_getElem? hshard, Nat.add_comm]
    · next hi => simp [Proc.inShard, Proc.countedIn, SubmitPc.countedIn, hpc, hi]
  | refuse hpc | reject hpc | abandon hpc =>
    rcases hpc with hpc | hpc <;>
      simp [Proc.inShard, Proc.countedIn, SubmitPc.countedIn, Shared.inFlight, hpc]
  | spawn hkind hpc =>
    simp [Proc.inShard, Proc.countedIn, SubmitPc.countedIn, Wrapper.countedIn, Shared.inFlight, hpc]
  | _ => simp [Proc.inShard, Proc.countedIn, SubmitPc.countedIn, Shared.inFlight, *]

theorem LoopStep.inShard {i : Nat} {d d' : DispatcherLoop} (hrlxd : cfg.kind = .rlxd)
    (h : LoopStep cfg pid sh d sh' d' sp) :
    (Proc.loop d' : Proc R).inShard i + Threads.started (Proc.inShard i) sp + sh.inFlight i =
      (Proc.loop d : Proc R).inShard i + sh'.inFlight i := by
  cases h with
  | insert hkind => simp [hrlxd] at hkind
  | precheck hkind => simp [hrlxd] at hkind
  | insertCount hkind hpc hshard =>
    rw [Shared.inFlight_setShard hshard]
    split
    · next hi =>
      subst hi
      simp [Proc.inShard, Proc.countedIn, DispatcherLoop.countedIn, hpc, DeferredRegistry.count,
        Shared.inFlight_of_getElem? hshard, Nat.add_comm]
    · next hi => simp [Proc.inShard, Proc.countedIn, DispatcherLoop.countedIn, hpc, hi]
  | insertRlxd hkind hpc hshard =>
    rw [Shared.inFlight_setShard hshard]
    split
    · next hi =>
      subst hi
      simp [Proc.inShard, Proc.countedIn, DispatcherLoop.countedIn, hpc, DeferredRegistry.store,
        Shared.inFlight_of_getElem? hshard, Nat.add_comm]
    · next hi => simp [Proc.inShard, Proc.countedIn, DispatcherLoop.countedIn, hpc, hi]
  | spawn hpc =>
    simp [Proc.inShard, Proc.countedIn, DispatcherLoop.countedIn, Wrapper.countedIn, hpc]
  | _ => simp [Proc.inShard, Proc.countedIn, DispatcherLoop.countedIn, Shared.inFlight, *]

/-- A wrapper counts itself out of the shard it is counted in, whose counter is
then positive. -/
theorem WrapperStep.inShard {i : Nat} {w w' : Wrapper R} (hrlxd : cfg.kind = .rlxd)
    (hle : Proc.inShard i (.wrapper w) ≤ sh.inFlight i) (h : WrapperStep cfg sh w sh' w') :
    Proc.inShard i (.wrapper w') + sh.inFlight i =
      Proc.inShard i (.wrapper w) + sh'.inFlight i := by
  cases h with
  | close hkind | closePanic hkind | remove hkind => simp [hrlxd] at hkind
  | countOut hkind hpc hshard =>
    rw [Shared.inFlight_setShard hshard]
    split
    · next hi =>
      subst hi
      simp [Proc.inShard, Proc.countedIn, Wrapper.countedIn, hpc, DeferredRegistry.finish,
        Shared.inFlight_of_getElem? hshard] at hle ⊢
      omega
    · next hi => simp [Proc.inShard, Proc.countedIn, Wrapper.countedIn, hpc, hi]
  | _ => simp [Proc.inShard, Proc.countedIn, Wrapper.countedIn, Shared.inFlight, *]

/-- In every run of the relaxed pool the in-flight counter of a shard is the
number of processes that are counted in it. -/
theorem inFlight_counted {ok : Pool σ R → PoolEvent R → Prop} {s : Pool σ R}
    (hrlxd : cfg.kind = .rlxd) (h : (poolMachine σ R cfg).Reachable ok s) (i : Nat) :
    s.tally (Proc.inShard i) = s.shared.inFlight i := by
  have hbalance : 0 + s.tally (Proc.inShard i) = s.shared.inFlight i := by
    refine Pool.conserved (f := fun _ => 0) (k := fun sh => sh.inFlight i)
      ?_ ?_ ?_ ?_ ?_ (fun _ _ _ => rfl) h ?_
    · intro pid sh c sh' c' sp _ hstep
      have hkept := hstep.inShard (i := i)
      omega
    · intro pid sh d sh' d' sp _ hstep
      have hkept := hstep.inShard (i := i) hrlxd
      omega
    · intro sh w sh' w' hle hstep
      have hkept := hstep.inShard (i := i) hrlxd (by omega)
      omega
    · intro sh sh' hquiet
      simp only [Shared.inFlight, hquiet.shards]
    · intro p hp
      cases p <;> first | rfl | exact hp.elim
    · show 0 + (Pool.new σ R cfg).tally (Proc.inShard i) = (Shared.new cfg : Shared σ R).inFlight i
      rw [Pool.tally_new (g := Proc.inShard i) fun _ => rfl]
      simp only [Shared.inFlight, Shared.new, hrlxd, List.getElem?_replicate]
      split <;> rfl
  omega

/-- Whether a wrapper has been unwound by the panic of a destructor instead of
running to its end. -/
def Proc.unwound : Proc R → Bool
  | .wrapper ⟨_, _, _, .unwind _⟩ | .wrapper ⟨_, _, _, .crashed true⟩ => true
  | _ => false

/-- An option names at most one of the first `n` numbers. -/
theorem sum_range_named (o : Option Nat) (n : Nat) :
    ((List.range n).map fun i => if o = some i then 1 else 0).sum =
      if o.any (· < n) then 1 else 0 := by
  cases o with
  | none => simp
  | some j =>
    induction n with
    | zero => simp
    | succ n ih =>
      rw [List.range_succ, List.map_append, List.sum_append, ih]
      simp only [Option.any_some, decide_eq_true_eq, Option.some.injEq, List.map_cons,
        List.map_nil, List.sum_cons, List.sum_nil]
      split <;> split <;> split <;> omega

/-- A process that is counted in a shard holds a permit, unless it is a wrapper
that was unwound. -/
theorem Proc.counted_le_permits {p : Proc R} (n : Nat) (h : p.unwound = false) :
    ((List.range n).map fun i => p.inShard i).sum ≤ p.permits := by
  have hle : ((List.range n).map fun i => p.inShard i).sum ≤ if p.countedIn.isSome then 1 else 0 := by
    simp only [Proc.inShard]
    rw [sum_range_named]
    cases p.countedIn <;> simp
    split <;> omega
  refine hle.trans ?_
  cases p with
  | submit c =>
    obtain ⟨_, _, _, pc, _⟩ := c
    cases pc <;> simp [countedIn, SubmitPc.countedIn, permits, SubmitPc.permits]
  | loop d =>
    obtain ⟨_, pc, _⟩ := d
    cases pc <;> simp [countedIn, DispatcherLoop.countedIn, permits, LoopPc.permits]
  | wrapper w =>
    obtain ⟨_, _, _, pc⟩ := w
    cases pc with
    | unwind tx => cases h
    | crashed registered =>
      cases registered
      · exact Nat.zero_le _
      · cases h
    | _ => simp [countedIn, Wrapper.countedIn, permits, WrapperPc.permits]
  | _ => exact Nat.zero_le _

omit [Semaphore σ] in
/-- The in-flight counters, summed shard by shard. -/
theorem Shared.sum_inFlight (sh : Shared σ R) :
    (sh.shards.map (·.inFlight)).sum = ((List.range sh.shards.length).map sh.inFlight).sum := by
  congr 1
  refine List.ext_getElem (by simp) fun i hi hi' => ?_
  have hlt : i < sh.shards.length := by simpa using hi
  simp [inFlight, hlt]

/-- While no wrapper has been unwound, the tasks in flight are no more than the permits that are
held. -/
theorem sum_inFlight_le {ok : Pool σ R → PoolEvent R → Prop} {s : Pool σ R}
    (hrlxd : cfg.kind = .rlxd) (h : (poolMachine σ R cfg).Reachable ok s)
    (hends : ∀ p ∈ s.procs, p.unwound = false) :
    (s.shared.shards.map (·.inFlight)).sum ≤ s.tally Proc.permits := by
  rw [Shared.sum_inFlight]
  calc ((List.range s.shared.shards.length).map s.shared.inFlight).sum
      = ((List.range s.shared.shards.length).map fun i => s.tally (Proc.inShard i)).sum := by
        simp only [inFlight_counted hrlxd h]
    _ = s.tally fun p =>
          ((List.range s.shared.shards.length).map fun i => p.inShard i).sum :=
        Threads.sum_tally _ _ s
    _ ≤ s.tally Proc.permits :=
        Threads.tally_mono fun pid p hp =>
          Proc.counted_le_permits _ (hends p (List.mem_of_getElem? hp))

/-- Permit conservation. In every reachable state of either pool the free
permits and the held ones add up to the clamped limit, so that at most that many
user futures are spawned and not ended; and while no wrapper has been unwound the
in-flight counters of the relaxed pool add up to at most the limit. -/
theorem concurrency_permits_conserved (σ R : Type) [Semaphore σ]
    (concurrencyLimit queueCapacity dispatchers : Nat) (poolName : String) :
    (∀ s : Pool σ R,
      (poolMachine σ R (.manager concurrencyLimit queueCapacity poolName)).Reachable
        Machine.anyStep s →
      permits s.shared.concurrencyGate + s.tally Proc.permits = max concurrencyLimit 1 ∧
        s.tally Proc.running ≤ max concurrencyLimit 1) ∧
    ∀ s : Pool σ R,
      (poolMachine σ R (.rlxd concurrencyLimit queueCapacity dispatchers poolName)).Reachable
        Machine.anyStep s →
      permits s.shared.concurrencyGate + s.tally Proc.permits = max concurrencyLimit 1 ∧
        s.tally Proc.running ≤ max concurrencyLimit 1 ∧
        ((∀ p ∈ s.procs, p.unwound = false) →
          (s.shared.shards.map (·.inFlight)).sum ≤ max concurrencyLimit 1) := by
  have hrunning : ∀ s : Pool σ R, s.tally Proc.running ≤ s.tally Proc.permits := fun s =>
    Threads.tally_mono fun _ p _ => p.running_le_permits
  refine ⟨fun s h => ?_, fun s h => ?_⟩
  · have hconserved := permits_conserved h
    have hle := hrunning s
    exact ⟨hconserved, by simp only [PoolConfig.manager] at hconserved; omega⟩
  · have hconserved := permits_conserved h
    have hle := hrunning s
    simp only [PoolConfig.rlxd] at hconserved
    refine ⟨hconserved, by omega, fun hends => ?_⟩
    have hsum := sum_inFlight_le rfl h hends
    omega

/-- A limit of 0 is clamped to 1. A task is submitted, and its wrapper holds the only permit: the
relaxed pool has dispatched it directly, the strict pool from its queue. -/
def submitted (cfg : PoolConfig) (steps : List Nat) : Pool FairSemaphore Nat :=
  let M := poolMachine FairSemaphore Nat cfg
  M.after (fun _ _ => true) (.call (.submit 0 ∅ .never) :: stepping steps) M.init

theorem submitted_reachable (cfg : PoolConfig) (steps : List Nat) :
    (poolMachine FairSemaphore Nat cfg).Reachable Machine.anyStep (submitted cfg steps) :=
  (Machine.steps_after _ _ _ _).any

def submittedStrict : Pool FairSemaphore Nat :=
  submitted (.manager 0 1 "pool") (List.replicate 8 1 ++ List.replicate 9 0)

def submittedRelaxed : Pool FairSemaphore Nat :=
  submitted (.rlxd 0 1 1 "pool") (List.replicate 11 1)

theorem concurrency_permits_conserved_submitted :
    submittedStrict.tally Proc.running = 1 ∧
      permits submittedStrict.shared.concurrencyGate + submittedStrict.tally Proc.permits = 1 ∧
      submittedStrict.tally Proc.running ≤ 1 ∧
      submittedRelaxed.tally Proc.running = 1 ∧
      permits submittedRelaxed.shared.concurrencyGate + submittedRelaxed.tally Proc.permits = 1 ∧
      submittedRelaxed.tally Proc.running ≤ 1 ∧
      (submittedRelaxed.shared.shards.map (·.inFlight)).sum ≤ 1 := by
  have hlaw := concurrency_permits_conserved FairSemaphore Nat 0 1 1 "pool"
  have hstrict := hlaw.1 submittedStrict (submitted_reachable _ _)
  have hrlxd := hlaw.2 submittedRelaxed (submitted_reachable _ _)
  have hends : submittedRelaxed.procs.all (!·.unwound) = true := by decide
  refine ⟨by decide, hstrict.1, hstrict.2, by decide, hrlxd.1, hrlxd.2.1, hrlxd.2.2 fun p hp => ?_⟩
  simpa using List.all_eq_true.mp hends p hp

end FuturesOrchestra
