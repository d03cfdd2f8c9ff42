import FuturesOrchestra.Proofs.Backpressure
import FuturesOrchestra.Proofs.Deferral
import FuturesOrchestra.Proofs.Registry

/-!
# The size of the shards

How long the slot array of a shard can get. In a shard by itself it is bounded by the cores
that are unfinished at once. In the relaxed pool these are the tasks that hold a permit: a
task is stored after its permit was acquired, and marked finished before it is released.
-/

namespace FuturesOrchestra

open Interleaving

variable {σ R : Type} {cfg : PoolConfig} {pid t i : Nat} {sh sh' : Shared σ R}
  {sp : Option (Proc R)} {p p' : Proc R}

/-! ## Stores -/

/-- A step leaves the slots of the shards alone, or it stores the task it carries, for which
it holds a permit. -/
inductive StoreStep (sh sh' : Shared σ R) (p : Proc R) : Prop
  | kept (hslots : ∀ i, sh'.shardSlots i = sh.shardSlots i)
  | stored {t i r} (hshard : sh.shards[i]? = some r)
      (hstore : sh'.shards = sh.shards.set i (r.store sh.isFinished t))
      (hcarries : p.carries = some t) (hpermits : p.permits = 1) (hentered : ¬p.entered t)

theorem StoreStep.of_setShard {r r' : DeferredRegistry Nat} (hshard : sh.shards[i]? = some r)
    (hset : sh'.shards = sh.shards.set i r') (hslots : r'.slots = r.slots) :
    StoreStep sh sh' p :=
  .kept (Shared.shardSlots_set hshard hset hslots)

theorem DeferredRegistry.length_slots_swept (r : DeferredRegistry Nat) (isFinished : Nat → Bool) :
    (r.swept isFinished).slots.length = r.slots.slots.length := by
  unfold swept
  split
  · exact ActiveSlots.length_slots_sweepFinished _ _
  · rfl

/-- When no slot is free even after a sweep, no core in the slots is finished. -/
theorem DeferredRegistry.unfinished_of_full {r : DeferredRegistry Nat} {isFinished : Nat → Bool}
    (hfull : (r.swept isFinished).free = []) (ht : t ∈ (r.swept isFinished).allTokens) :
    ∃ j, r.slots.get j = some t ∧ isFinished t = false := by
  have hsweeps : r.swept isFinished = r.slots.sweepFinished isFinished := by
    unfold swept at hfull ⊢
    split at hfull
    · next hempty => rw [if_pos hempty]
    · next hroom =>
      rw [hfull] at hroom
      exact absurd rfl hroom
  obtain ⟨j, hj⟩ := ActiveSlots.mem_allTokens.mp ht
  rw [hsweeps, ActiveSlots.get_sweepFinished, Option.filter_eq_some_iff, Bool.not_eq_true'] at hj
  exact ⟨j, hj.1, hj.2⟩

/-- The wrapper is past the mark of its core, at the program points of the relaxed pool. -/
def WrapperPc.late : WrapperPc R → Bool
  | .finish | .release | .remove | .ended | .crashed false => true
  | _ => false

theorem WrapperPc.late_of_permits {pc : WrapperPc R} (h : pc.permits = 0) :
    pc.late = true ∨ pc = .crashed true := by
  cases pc with
  | crashed registered =>
    cases registered with
    | false => exact .inl rfl
    | true => exact .inr rfl
  | remove | ended => exact .inl rfl
  | _ => cases h

theorem WrapperPc.permits_le_one (pc : WrapperPc R) : pc.permits ≤ 1 := by
  cases pc <;> simp [permits]

theorem Proc.permits_of_wrapper {w : Wrapper R} (htask : w.task = t) :
    (Proc.wrapper w).permits = 1 ∨
      ∃ w', Proc.wrapper w = .wrapper w' ∧ w'.task = t ∧ w'.pc.permits = 0 := by
  rcases Nat.le_one_iff_eq_zero_or_eq_one.mp w.pc.permits_le_one with hnone | hone
  · exact .inr ⟨w, rfl, htask, hnone⟩
  · exact .inl hone

/-- A process that has started a task holds a permit for it, unless it is the wrapper of the
task without one. -/
theorem Proc.permits_of_entered (h : p.entered t) :
    p.permits = 1 ∨ ∃ w, p = .wrapper w ∧ w.task = t ∧ w.pc.permits = 0 := by
  rcases h with ⟨i, hreg⟩ | ⟨w, rfl, htask⟩
  · cases p with
    | submit c =>
      refine .inl ?_
      obtain ⟨_, _, _, pc, _⟩ := c
      cases pc <;> first | rfl | cases hreg
    | loop d =>
      refine .inl ?_
      obtain ⟨_, pc, _⟩ := d
      cases pc <;> first | rfl | cases hreg
    | wrapper w => exact permits_of_wrapper (Option.some.inj (carries_of_registered hreg))
    | _ => cases hreg
  · exact permits_of_wrapper htask

theorem Proc.not_entered (hreg : p.registered = none) (hwrapper : ∀ w, p ≠ .wrapper w) :
    ¬p.entered t := by
  rintro (⟨i, hentered⟩ | ⟨w, heq, -⟩)
  · rw [hreg] at hentered
    cases hentered
  · exact hwrapper w heq

variable [Semaphore σ]

theorem SubmitStep.stores {kind : PoolKind} {c c' : SubmitCall R}
    (h : SubmitStep kind pid sh c sh' c' sp) : StoreStep sh sh' (.submit c) := by
  cases h with
  | insert hkind hpc hshard =>
    refine .stored hshard rfl (by rw [Proc.carries, hpc]; rfl) (by rw [Proc.permits, hpc]; rfl) ?_
    exact Proc.not_entered (by rw [Proc.registered, hpc]; rfl) (by rintro w ⟨⟩)
  | insertCount hkind hpc hshard => exact .of_setShard hshard rfl rfl
  | _ => exact .kept fun _ => rfl

theorem LoopStep.stores {d d' : DispatcherLoop} (h : LoopStep cfg pid sh d sh' d' sp) :
    StoreStep sh sh' (.loop d : Proc R) := by
  cases h with
  | insertRlxd hkind hpc hshard =>
    refine .stored hshard rfl (by rw [Proc.carries, hpc]; rfl) (by rw [Proc.permits, hpc]; rfl) ?_
    exact Proc.not_entered (by rw [Proc.registered, hpc]; rfl) (by rintro w ⟨⟩)
  | insertCount hkind hpc hshard => exact .of_setShard hshard rfl rfl
  | _ => exact .kept fun _ => rfl

theorem Proc.Step.stores (h : Proc.Step cfg pid sh p sh' p' sp) : StoreStep sh sh' p := by
  cases h with
  | submit hstep => exact hstep.stores
  | loop hstep => exact hstep.stores
  | wrapper hstep =>
    cases hstep with
    | countOut hkind hpc hshard => exact .of_setShard hshard rfl rfl
    | _ => exact .kept fun _ => rfl
  | bystander _ _ hstep =>
    exact .kept fun i => Registers.shardSlots_eq hstep.1.shards i

/-! ## Cores in the slots -/

section Runs

variable {ok : Pool σ R → PoolEvent R → Prop} {s : Pool σ R}

/-- In the relaxed pool a wrapper gives back its permit after it has marked its core finished. -/
theorem late_finished (hrlxd : cfg.kind = .rlxd) (h : (poolMachine σ R cfg).Reachable ok s)
    {w : Wrapper R} (hw : s.At pid (.wrapper w)) (hlate : w.pc.late = true) :
    s.shared.isFinished w.task = true := by
  refine Pool.invariant (I := fun s => ∀ pid w, s.At pid (.wrapper w) → w.pc.late = true →
    s.shared.isFinished w.task = true) .refl ?_ ?_ h ?_ pid w hw hlate
  · intro s b pid p sh p' sp hreach hs _ hp hrun qid w hq hlate
    have hevolves := Shared.Evolves.proc (Proc.step_of_run hrun)
    rcases Threads.update_getElem? hp hq with ⟨rfl, rfl⟩ | ⟨-, hold⟩ | ⟨-, hnew⟩
    · obtain ⟨w₀, rfl, hstep⟩ := Proc.wrapper_of_run hrun
      have htask := hstep.task_kept
      have hkept (hbefore : w₀.pc.late = true) : sh.isFinished w.task = true := by
        rw [htask]
        exact (hevolves.tasks w₀.task (lt_of_carries hreach hp rfl)).finished (hs qid w₀ hp hbefore)
      cases hstep with
      | finish =>
        rw [Threads.update_shared]
        simp [Shared.isFinished, Task.isFinished, Task.markFinished, TaskCore.markFinished]
      | countOut _ hpc | release _ hpc | releasePanic _ hpc => exact hkept (by rw [hpc]; rfl)
      | close hkind | closePanic hkind | remove hkind =>
        rw [hrlxd] at hkind
        cases hkind
      | _ => cases hlate
    · exact (hevolves.tasks w.task (lt_of_carries hreach hold rfl)).finished (hs qid w hold hlate)
    · have hstep : Proc.Step cfg pid s.shared p sh p' (some (.wrapper w)) :=
        Proc.step_of_run (hnew ▸ hrun)
      rw [hstep.spawned.2] at hlate
      cases hlate
  · intro s c sh sp _ hs _ hcall qid w hq hlate
    obtain ⟨hquiet, hfresh⟩ := Call.enter_quiet hcall
    rcases Threads.spawn_getElem? hq with hold | ⟨-, hnew⟩
    · exact (hquiet.tasks w.task).isFinished.trans (hs qid w hold hlate)
    · cases hfresh _ hnew with
      | bystander hby => exact hby.elim
  · intro pid w hw
    cases (Pool.init_loop hw).2

/-- A task that is not in the registry is in no slot of a shard. -/
theorem not_stored (hrlxd : cfg.kind = .rlxd) (h : (poolMachine σ R cfg).Reachable ok s)
    (hp : s.At pid p) (hcarries : p.carries = some t) (hentered : ¬p.entered t)
    {a : ActiveSlots Nat} {j : Nat} (ha : s.shared.shardSlots i = some a) :
    a.get j ≠ some t := by
  intro hj
  have hholds : s.shared.holds cfg t i := by
    unfold Shared.holds
    rw [hrlxd]
    exact ⟨a, j, ha, hj⟩
  obtain ⟨qid, q, hq, hqentered⟩ := (registry h).entered t i hholds
  obtain rfl := carrier_unique h hp hq hcarries (Proc.carries_of_entered hqentered)
  obtain rfl := Option.some.inj (hp.symm.trans hq)
  exact hentered hqentered

/-- No task is in two slots of a shard. -/
theorem slot_unique (hrlxd : cfg.kind = .rlxd) (h : (poolMachine σ R cfg).Reachable ok s) {a : ActiveSlots Nat} {j k u : Nat}
    (ha : s.shared.shardSlots i = some a) (hj : a.get j = some u) (hk : a.get k = some u) :
    j = k := by
  refine Pool.induct (I := fun s => ∀ i a j k u, s.shared.shardSlots i = some a →
    a.get j = some u → a.get k = some u → j = k) .refl ?_ ?_ h ?_ i a j k u ha hj hk
  · intro s b pid p sh p' sp hreach hs _ hp hstep i a j k u ha hj hk
    rw [Threads.update_shared] at ha
    cases hstep.stores with
    | kept hslots => exact hs i a j k u (hslots i ▸ ha) hj hk
    | @stored t shard r hshard hstore hcarries _ hentered =>
      rw [Registers.shardSlots_stored hshard hstore] at ha
      split at ha
      · next hi =>
        subst hi
        cases ha
        have hr : s.shared.shardSlots i = some r.slots := by
          rw [Shared.shardSlots, hshard, Option.map_some]
        have hvalid := (registry hreach).shards i r.slots hr
        have hswept : (r.swept s.shared.isFinished).Valid := DeferredRegistry.valid_swept hvalid
        have hget := ActiveSlots.get_insert hswept t
        -- the task that is stored was nowhere
        have hfresh : ∀ m, (r.swept s.shared.isFinished).get m ≠ some t := fun m hm =>
          not_stored hrlxd hreach hp hcarries hentered hr (DeferredRegistry.get_of_swept hm)
        rw [DeferredRegistry.slots_store, hget] at hj hk
        split at hj <;> split at hk
        · next hj' hk' => rw [hj', hk']
        · exact absurd (hk.trans hj.symm) (hfresh k)
        · exact absurd (hj.trans hk.symm) (hfresh j)
        · exact hs i r.slots j k u hr (DeferredRegistry.get_of_swept hj)
            (DeferredRegistry.get_of_swept hk)
      · exact hs i a j k u ha hj hk
  · intro s c sh sp _ hs _ hquiet _ i a j k u ha hj hk
    rw [Threads.spawn_shared] at ha
    exact hs i a j k u (Registers.shardSlots_eq hquiet.shards i ▸ ha) hj hk
  · intro i a j k u ha hj
    rw [Shared.shardSlots_new ha, ActiveSlots.get_empty] at hj
    cases hj

/-! ## The bound -/

/-- Tasks that are held with a permit are no more than there are permits. -/
theorem length_held_le (h : (poolMachine σ R cfg).Reachable ok s) {l : List Nat} (hnodup : l.Nodup)
    (hheld : ∀ u ∈ l, 0 < s.tally fun p => names u p.held) : l.length ≤ cfg.permits := by
  have hlt : ∀ u ∈ l, u < l.sum + 1 := fun u hu => Nat.lt_succ_of_le (List.le_sum_of_mem hu)
  have hperm : ((List.range (l.sum + 1)).filter (· ∈ l)).Perm l := by
    refine (List.perm_ext_iff_of_nodup (List.nodup_range.filter _) hnodup).mpr fun u => ?_
    rw [List.mem_filter, List.mem_range, decide_eq_true_eq]
    exact ⟨And.right, fun hu => ⟨hlt u hu, hu⟩⟩
  have hle := length_filter_le_sum (f := fun u => decide (u ∈ l)) (List.range (l.sum + 1))
    fun u _ hu => hheld u (of_decide_eq_true hu)
  calc l.length = ((List.range (l.sum + 1)).filter (· ∈ l)).length := hperm.length_eq.symm
    _ ≤ ((List.range (l.sum + 1)).map fun t => s.tally fun p => names t p.held).sum := hle
    _ ≤ cfg.permits := sum_held_le h _

omit [Semaphore σ] in
theorem held_pos (hp : s.At pid p) (hcarries : p.carries = some t) (hpermits : p.permits = 1) :
    0 < s.tally fun p => names t p.held := by
  have hle := Threads.le_tally (g := fun p => names t p.held) hp
  have hone : names t p.held = 1 := by
    rw [Proc.held, hpermits, if_pos Nat.one_pos, hcarries, names_self]
  rw [hone] at hle
  exact hle

/-- An unfinished core in a shard belongs to a task with a permit, unless its wrapper was
unwound. -/
theorem held_of_stored (hrlxd : cfg.kind = .rlxd) (h : (poolMachine σ R cfg).Reachable ok s)
    (hends : ∀ p ∈ s.procs, p.unwound = false) {a : ActiveSlots Nat} {j u : Nat}
    (ha : s.shared.shardSlots i = some a) (hj : a.get j = some u)
    (hunfinished : s.shared.isFinished u = false) :
    0 < s.tally fun p => names u p.held := by
  have hholds : s.shared.holds cfg u i := by
    unfold Shared.holds
    rw [hrlxd]
    exact ⟨a, j, ha, hj⟩
  obtain ⟨pid, p, hp, hentered⟩ := (registry h).entered u i hholds
  refine held_pos hp (Proc.carries_of_entered hentered) ?_
  rcases Proc.permits_of_entered hentered with hpermits | ⟨w, rfl, rfl, hpermits⟩
  · exact hpermits
  · rcases WrapperPc.late_of_permits hpermits with hlate | hcrashed
    · rw [late_finished hrlxd h hp hlate] at hunfinished
      cases hunfinished
    · have hends := hends _ (List.mem_of_getElem? hp)
      obtain ⟨_, _, _, pc⟩ := w
      obtain rfl : pc = .crashed true := hcrashed
      cases hends

/-- A wrapper that was unwound stays so. -/
theorem Proc.Step.unwound_kept (h : Proc.Step cfg pid sh p sh' p' sp) (hp : p.unwound = true) :
    p'.unwound = true := by
  cases h with
  | @wrapper w _ w' hstep =>
    obtain ⟨_, _, _, pc⟩ := w
    cases hstep with
    | unwind | unwindSent => rfl
    | close _ hpc | closePanic _ hpc | remove _ hpc | finish _ hpc | countOut _ hpc | release _ hpc
    | releasePanic _ hpc =>
      obtain rfl : pc = _ := hpc
      cases hp
    | _ hpc =>
      obtain rfl : pc = _ := hpc
      cases hp
  | bystander hby => cases p <;> first | exact hby.elim | cases hp
  | _ => cases hp

/-- A shard in which a task is stored has as many slots as before, or as many as there are
tasks with a permit. -/
theorem length_store_le (hrlxd : cfg.kind = .rlxd) (h : (poolMachine σ R cfg).Reachable ok s)
    (hends : ∀ p ∈ s.procs, p.unwound = false) (hp : s.At pid p) {r : DeferredRegistry Nat}
    (hshard : s.shared.shards[i]? = some r) (hcarries : p.carries = some t)
    (hpermits : p.permits = 1) (hentered : ¬p.entered t) :
    (r.store s.shared.isFinished t).slots.slots.length ≤ max r.slots.slots.length cfg.permits := by
  have hr : s.shared.shardSlots i = some r.slots := by
    rw [Shared.shardSlots, hshard, Option.map_some]
  have hvalid := (registry h).shards i r.slots hr
  have hswept : (r.swept s.shared.isFinished).Valid := DeferredRegistry.valid_swept hvalid
  have hlength := r.length_slots_swept s.shared.isFinished
  have hslots := ActiveSlots.length_slots hswept
  have hlen := ActiveSlots.len_eq hswept
  rw [DeferredRegistry.slots_store, ActiveSlots.length_slots_insert hswept, hlength]
  refine max_le (le_max_left _ _) ?_
  cases hfree : (r.swept s.shared.isFinished).free with
  | cons slot free =>
    rw [hfree, List.length_cons] at hslots
    refine le_trans ?_ (le_max_left _ _)
    omega
  | nil =>
    -- nothing is free after the sweep, so that every core in the slots is unfinished
    refine le_trans ?_ (le_max_right _ _)
    have hheld : ∀ u ∈ t :: (r.swept s.shared.isFinished).allTokens,
        0 < s.tally fun p => names u p.held := by
      intro u hu
      rcases List.mem_cons.mp hu with rfl | hu
      · exact held_pos hp hcarries hpermits
      · obtain ⟨j, hj, hunfinished⟩ := DeferredRegistry.unfinished_of_full hfree hu
        exact held_of_stored hrlxd h hends hr hj hunfinished
    have hfresh : t ∉ (r.swept s.shared.isFinished).allTokens := by
      intro hmem
      obtain ⟨j, hj, -⟩ := DeferredRegistry.unfinished_of_full hfree hmem
      exact not_stored hrlxd h hp hcarries hentered hr hj
    have hnodup : (r.swept s.shared.isFinished).allTokens.Nodup :=
      ActiveSlots.nodup_allTokens fun j k u hj hk => slot_unique hrlxd h hr
        (DeferredRegistry.get_of_swept hj) (DeferredRegistry.get_of_swept hk)
    have hle := length_held_le h (List.nodup_cons.mpr ⟨hfresh, hnodup⟩) hheld
    rw [List.length_cons, ← hlen] at hle
    exact hle

/-- While every wrapper runs to its end, no shard has more slots than there are permits. -/
theorem shards_bounded (hrlxd : cfg.kind = .rlxd) (h : (poolMachine σ R cfg).Reachable ok s)
    (hends : ∀ p ∈ s.procs, p.unwound = false) {r : DeferredRegistry Nat}
    (hshard : s.shared.shards[i]? = some r) : r.slots.slots.length ≤ cfg.permits := by
  refine Pool.induct (I := fun s => (∀ p ∈ s.procs, p.unwound = false) → ∀ i a,
    s.shared.shardSlots i = some a → a.slots.length ≤ cfg.permits) .refl ?_ ?_ h ?_ hends i r.slots ?_
  · intro s b pid p sh p' sp hreach hs _ hp hstep hends i a ha
    have hends₀ : ∀ q ∈ s.procs, q.unwound = false := by
      intro q hq
      obtain ⟨qid, hqid⟩ := List.getElem?_of_mem hq
      rw [← Bool.not_eq_true]
      intro hunwound
      by_cases hne : qid = pid
      · subst hne
        obtain rfl := Option.some.inj (hp.symm.trans hqid)
        have hafter := hends p' (List.mem_of_getElem? (Threads.update_self hp))
        rw [hstep.unwound_kept hunwound] at hafter
        cases hafter
      · have hafter := hends q (List.mem_of_getElem? (Threads.update_other hne hqid))
        rw [hunwound] at hafter
        cases hafter
    rw [Threads.update_shared] at ha
    cases hstep.stores with
    | kept hslots => exact hs hends₀ i a (hslots i ▸ ha)
    | @stored t shard r hshard hstore hcarries hpermits hentered =>
      rw [Registers.shardSlots_stored hshard hstore] at ha
      split at ha
      · next hi =>
        subst hi
        cases ha
        have hr : s.shared.shardSlots i = some r.slots := by
          rw [Shared.shardSlots, hshard, Option.map_some]
        exact (length_store_le hrlxd hreach hends₀ hp hshard hcarries hpermits hentered).trans
          (max_le (hs hends₀ i r.slots hr) le_rfl)
      · exact hs hends₀ i a ha
  · intro s c sh sp _ hs _ hquiet _ hends i a ha
    rw [Threads.spawn_shared] at ha
    refine hs (fun q hq => hends q ?_) i a (Registers.shardSlots_eq hquiet.shards i ▸ ha)
    exact List.mem_append_left _ hq
  · intro _ i a ha
    rw [Shared.shardSlots_new ha]
    exact Nat.zero_le _
  · rw [Shared.shardSlots, hshard, Option.map_some]

end Runs

/-- Deferred registries do not grow without bound. Over every history of a shard its slot array
never exceeds the largest number of cores that were unfinished at once, with the one that is
being inserted; and in the relaxed pool, as long as every spawned wrapper runs to its end, no
shard exceeds the concurrency limit. -/
theorem deferred_registries_bounded (σ R : Type) [Semaphore σ]
    (concurrencyLimit queueCapacity dispatchers : Nat) (poolName : String) :
    (∀ s : Threads Shard TenantPc, shardMachine.Reachable Machine.anyStep s →
      s.shared.registry.slots.slots.length ≤ s.shared.peak) ∧
    ∀ s : Pool σ R,
      (poolMachine σ R (.rlxd concurrencyLimit queueCapacity dispatchers poolName)).Reachable
        Machine.anyStep s → (∀ p ∈ s.procs, p.unwound = false) →
      ∀ r ∈ s.shared.shards, r.slots.slots.length ≤ max concurrencyLimit 1 := by
  refine ⟨fun s h => (roomy h).length, fun s h hends r hr => ?_⟩
  obtain ⟨i, hi⟩ := List.getElem?_of_mem hr
  exact shards_bounded rfl h hends hi

/-- A shard in which the second task takes the slot of the first one. -/
def reclaimed : Threads Shard TenantPc :=
  shardMachine.after (fun _ _ => true)
    ([.call ()] ++ [0, 0, 0, 0, 0, 0].map (.run ()) ++ [.call ()] ++ [1, 1, 1, 1, 1].map (.run ()))
    shardMachine.init

theorem deferred_registries_bounded_reclaimed :
    reclaimed.shared.registry.slots.slots = [some 1] ∧
      reclaimed.shared.registry.slots.slots.length ≤ reclaimed.shared.peak ∧
      reclaimed.shared.peak = 1 ∧
      submittedRelaxed.shared.shards.map (·.slots.slots) = [[some 0]] ∧
      ∀ r ∈ submittedRelaxed.shared.shards, r.slots.slots.length ≤ 1 := by
  have hlaw := deferred_registries_bounded FairSemaphore Nat 0 1 1 "pool"
  have hends : submittedRelaxed.procs.all (!·.unwound) = true := by decide
  refine ⟨by decide, hlaw.1 reclaimed (Machine.steps_after _ _ _ _).any, by decide, by decide,
    hlaw.2 submittedRelaxed (submitted_reachable _ _) fun p hp => ?_⟩
  simpa using List.all_eq_true.mp hends p hp

end FuturesOrchestra
