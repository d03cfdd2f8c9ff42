import FuturesOrchestra.Proofs.ActiveSlots
import FuturesOrchestra.Proofs.Custody

/-!
# Who is in the registry

A process is `registered` with a task and a slot from the insert of the task to
the end of its execution: the removal of the slot in the strict pool, the
`finished` flag in the relaxed one. `Registry` says that every registered task is
found where its process says, and that whatever is found there is a task that was
started.
-/

namespace FuturesOrchestra

open Interleaving

variable {σ R : Type} {cfg : PoolConfig} {pid t i : Nat} {sh sh' : Shared σ R}
  {sp : Option (Proc R)}

/-- The wrapper has left the registry. -/
def WrapperPc.left : WrapperPc R → Bool
  | .finish | .release | .ended | .crashed false => true
  | _ => false

def SubmitPc.registered : SubmitPc → Option (Nat × Nat)
  | .lookup t shard | .spawn t shard _ => some (t, shard)
  | _ => none

def LoopPc.registered : LoopPc → Option (Nat × Nat)
  | .lookup t slot | .spawn t slot _ => some (t, slot)
  | _ => none

/-- The task the process has put into the registry, with the slot (strict pool)
or the shard (relaxed pool) it went to. -/
def Proc.registered : Proc R → Option (Nat × Nat)
  | .submit c => c.pc.registered
  | .loop d => d.pc.registered
  | .wrapper w => if w.pc.left then none else some (w.task, w.slot)
  | _ => none

/-- The slots of shard `i`. -/
def Shared.shardSlots (sh : Shared σ R) (i : Nat) : Option (ActiveSlots Nat) :=
  (sh.shards[i]?).map DeferredRegistry.slots

/-- Task `t` is found in slot `i` of the strict registry, or in shard `i` of the
relaxed one, where it may be finished and not yet swept. -/
def Shared.holds (cfg : PoolConfig) (sh : Shared σ R) (t i : Nat) : Prop :=
  match cfg.kind with
  | .strict => sh.active.get i = some t
  | .rlxd => ∃ a j, sh.shardSlots i = some a ∧ a.get j = some t

/-- The process has started task `t`. -/
def Proc.entered (t : Nat) (p : Proc R) : Prop :=
  (∃ i, p.registered = some (t, i)) ∨ ∃ w, p = .wrapper w ∧ w.task = t

theorem Proc.carries_of_registered {p : Proc R} (h : p.registered = some (t, i)) :
    p.carries = some t := by
  cases p with
  | submit c => cases hpc : c.pc <;> simp_all [registered, carries, SubmitPc.registered, SubmitPc.task]
  | loop d => cases hpc : d.pc <;> simp_all [registered, carries, LoopPc.registered, LoopPc.task]
  | wrapper w =>
    simp only [registered] at h
    split at h
    · cases h
    · cases h
      rfl
  | _ => cases h

theorem Proc.carries_of_entered {p : Proc R} (h : p.entered t) : p.carries = some t := by
  rcases h with ⟨i, hreg⟩ | ⟨w, rfl, rfl⟩
  · exact carries_of_registered hreg
  · rfl

/-! ## What a step does to the registry -/

/-- A step of a process leaves the slots alone, inserts a task, stores one in a
shard, or removes a slot. -/
inductive Registers (cfg : PoolConfig) (sh sh' : Shared σ R) (p p' : Proc R) : Prop
  | kept (hactive : sh'.active = sh.active)
      (hshards : ∀ i, sh'.shardSlots i = sh.shardSlots i)
      (hp : ∀ x, p'.registered = some x → p.registered = some x)
  | inserted {t slot} (hkind : cfg.kind = .strict)
      (hinsert : sh.active.insert t = (sh'.active, slot)) (hshards : sh'.shards = sh.shards)
      (hp : p'.registered = some (t, slot))
  | stored {t i r} (hkind : cfg.kind = .rlxd) (hactive : sh'.active = sh.active)
      (hshard : sh.shards[i]? = some r)
      (hstore : sh'.shards = sh.shards.set i (r.store sh.isFinished t))
      (hp : p'.registered = some (t, i))
  | removed {t slot} (hkind : cfg.kind = .strict) (hactive : sh'.active = sh.active.remove slot)
      (hshards : sh'.shards = sh.shards) (hp : p.registered = some (t, slot))
      (hp' : p'.registered = none)

/-- A shard that keeps its slots keeps those of the pool. -/
theorem Shared.shardSlots_set {r r' : DeferredRegistry Nat} (hshard : sh.shards[i]? = some r)
    (hset : sh'.shards = sh.shards.set i r') (hslots : r'.slots = r.slots) (j : Nat) :
    sh'.shardSlots j = sh.shardSlots j := by
  have hlt : i < sh.shards.length := (List.getElem?_eq_some_iff.mp hshard).1
  rw [shardSlots, shardSlots, hset]
  by_cases hj : i = j
  · subst hj
    rw [List.getElem?_set_self hlt, hshard, Option.map_some, Option.map_some, hslots]
  · rw [List.getElem?_set_ne hj]

namespace Registers

variable {p p' : Proc R}

theorem of_eq (hactive : sh'.active = sh.active) (hshards : sh'.shards = sh.shards)
    (hp : ∀ x, p'.registered = some x → p.registered = some x) : Registers cfg sh sh' p p' :=
  .kept hactive (fun i => by rw [Shared.shardSlots, Shared.shardSlots, hshards]) hp

theorem of_setShard {r r' : DeferredRegistry Nat} (hactive : sh'.active = sh.active)
    (hshard : sh.shards[i]? = some r) (hset : sh'.shards = sh.shards.set i r')
    (hslots : r'.slots = r.slots) (hp : ∀ x, p'.registered = some x → p.registered = some x) :
    Registers cfg sh sh' p p' := by
  exact .kept hactive (Shared.shardSlots_set hshard hset hslots) hp

theorem shardSlots_stored {r : DeferredRegistry Nat} (hshard : sh.shards[i]? = some r)
    (hstore : sh'.shards = sh.shards.set i (r.store sh.isFinished t)) (j : Nat) :
    sh'.shardSlots j =
      if j = i then some (r.store sh.isFinished t).slots else sh.shardSlots j := by
  have hlt : i < sh.shards.length := (List.getElem?_eq_some_iff.mp hshard).1
  rw [Shared.shardSlots, Shared.shardSlots, hstore]
  by_cases hj : j = i
  · simp [hj, hlt]
  · simp [hj, List.getElem?_set_ne (Ne.symm hj)]

theorem shardSlots_eq (h : sh'.shards = sh.shards) (i : Nat) : sh'.shardSlots i = sh.shardSlots i := by
  rw [Shared.shardSlots, Shared.shardSlots, h]

theorem valid (h : Registers cfg sh sh' p p') (ha : sh.active.Valid) : sh'.active.Valid := by
  cases h with
  | kept hactive | stored hkind hactive => exact hactive ▸ ha
  | @inserted t slot _ hinsert =>
    have hvalid := ha.insert t
    rwa [hinsert] at hvalid
  | @removed _ slot _ hactive => exact hactive ▸ ha.remove slot

theorem shards_valid (h : Registers cfg sh sh' p p')
    (hs : ∀ i a, sh.shardSlots i = some a → a.Valid) :
    ∀ i a, sh'.shardSlots i = some a → a.Valid := by
  intro j a ha
  cases h with
  | kept _ hshards => exact hs j a (hshards j ▸ ha)
  | inserted _ _ hshards | removed _ _ hshards => exact hs j a (shardSlots_eq hshards j ▸ ha)
  | @stored t i r _ _ hshard hstore =>
    rw [shardSlots_stored hshard hstore] at ha
    split at ha
    · cases ha
      exact DeferredRegistry.valid_store (hs i r.slots (by simp [Shared.shardSlots, hshard])) t
    · exact hs j a ha

/-- What was in the registry and is not finished stays there, unless the step
removes its slot. -/
theorem holds_kept (h : Registers cfg sh sh' p p') (ha : sh.active.Valid)
    (hs : ∀ i a, sh.shardSlots i = some a → a.Valid) (hholds : sh.holds cfg t i)
    (hfinished : sh.isFinished t = false) :
    sh'.holds cfg t i ∨ (p'.registered = none ∧ ∃ u, p.registered = some (u, i) ∧
      (sh.holds cfg u i → u = t)) := by
  unfold Shared.holds at hholds ⊢
  cases h with
  | kept hactive hshards =>
    refine .inl ?_
    simp only [hactive, hshards]
    exact hholds
  | @inserted u slot hkind hinsert =>
    refine .inl ?_
    simp only [hkind] at hholds ⊢
    have hget := ActiveSlots.get_insert ha u i
    have hslot := ActiveSlots.get_insert_slot ha u
    rw [hinsert] at hget hslot
    rw [hget, if_neg]
    · exact hholds
    · rintro rfl
      rw [hslot] at hholds
      cases hholds
  | @stored u j r hkind _ hshard hstore =>
    refine .inl ?_
    simp only [hkind] at hholds ⊢
    obtain ⟨a, k, hslots, hget⟩ := hholds
    rw [shardSlots_stored hshard hstore]
    split
    · next hij =>
      subst hij
      obtain rfl : r.slots = a := by simpa [Shared.shardSlots, hshard] using hslots
      exact ⟨_, k, rfl, DeferredRegistry.get_store_kept (hs i _ hslots) hget hfinished⟩
    · exact ⟨a, k, hslots, hget⟩
  | @removed u slot hkind hactive _ hp hp' =>
    simp only [hkind] at hholds ⊢
    by_cases hi : i = slot
    · subst hi
      refine .inr ⟨hp', u, hp, fun hu => ?_⟩
      exact Option.some.inj (hu.symm.trans hholds)
    · rw [hactive, ActiveSlots.get_remove, if_neg hi]
      exact .inl hholds

/-- What is in the registry was there before, or the process has just put it
there. -/
theorem holds_new (h : Registers cfg sh sh' p p') (ha : sh.active.Valid)
    (hs : ∀ i a, sh.shardSlots i = some a → a.Valid) (hholds : sh'.holds cfg t i) :
    sh.holds cfg t i ∨ p'.registered = some (t, i) := by
  unfold Shared.holds at hholds ⊢
  cases h with
  | kept hactive hshards =>
    simp only [hactive, hshards] at hholds
    exact .inl hholds
  | @inserted u slot hkind hinsert _ hp =>
    simp only [hkind] at hholds ⊢
    have hget := ActiveSlots.get_insert ha u i
    rw [hinsert] at hget
    rw [hget] at hholds
    split at hholds
    · next hi =>
      cases hholds
      exact .inr (hi ▸ hp)
    · exact .inl hholds
  | @stored u j r hkind _ hshard hstore hp =>
    simp only [hkind] at hholds ⊢
    obtain ⟨a, k, hslots, hget⟩ := hholds
    rw [shardSlots_stored hshard hstore] at hslots
    split at hslots
    · next hij =>
      subst hij
      cases hslots
      have hr : sh.shardSlots i = some r.slots := by simp [Shared.shardSlots, hshard]
      rcases DeferredRegistry.get_of_store (hs i _ hr) hget with rfl | hold
      · exact .inr hp
      · exact .inl ⟨_, k, hr, hold⟩
    · exact .inl ⟨a, k, hslots, hget⟩
  | @removed u slot hkind hactive =>
    simp only [hkind] at hholds ⊢
    rw [hactive, ActiveSlots.get_remove] at hholds
    split at hholds
    · cases hholds
    · exact .inl hholds

/-- A process is newly registered by an insert of its task. -/
theorem listed_new (h : Registers cfg sh sh' p p') (ha : sh.active.Valid)
    (hs : ∀ i a, sh.shardSlots i = some a → a.Valid) (hp' : p'.registered = some (t, i)) :
    p.registered = some (t, i) ∨ sh'.holds cfg t i := by
  unfold Shared.holds
  cases h with
  | kept _ _ hp => exact .inl (hp _ hp')
  | @inserted u slot hkind hinsert _ hp =>
    refine .inr ?_
    rw [hp] at hp'
    cases hp'
    have hget := ActiveSlots.get_insert ha t i
    rw [hinsert] at hget
    simp [hkind, hget]
  | @stored u j r hkind _ hshard hstore hp =>
    refine .inr ?_
    rw [hp] at hp'
    cases hp'
    have hr : sh.shardSlots i = some r.slots := by simp [Shared.shardSlots, hshard]
    obtain ⟨k, hget⟩ :=
      DeferredRegistry.get_store_self (hs i _ hr) sh.isFinished t
    simp only [hkind]
    exact ⟨_, k, by rw [shardSlots_stored hshard hstore, if_pos rfl], hget⟩
  | removed _ _ _ _ hp => rw [hp] at hp'; cases hp'

end Registers

variable [Semaphore σ]

theorem SubmitStep.registers {c c' : SubmitCall R} (h : SubmitStep cfg.kind pid sh c sh' c' sp) :
    Registers cfg sh sh' (.submit c) (.submit c') := by
  cases h with
  | insert hkind hpc hshard => exact .stored hkind rfl hshard rfl rfl
  | insertCount hkind hpc hshard => exact .of_setShard rfl hshard rfl rfl nofun
  | lookup hkind hpc => exact .of_eq rfl rfl (by simp [Proc.registered, SubmitPc.registered, hpc])
  | _ => exact .of_eq rfl rfl nofun

theorem LoopStep.registers {d d' : DispatcherLoop} (h : LoopStep cfg pid sh d sh' d' sp) :
    Registers cfg sh sh' (.loop d : Proc R) (.loop d') := by
  cases h with
  | insert hkind hpc hinsert => exact .inserted hkind hinsert rfl rfl
  | insertRlxd hkind hpc hshard => exact .stored hkind rfl hshard rfl rfl
  | insertCount hkind hpc hshard => exact .of_setShard rfl hshard rfl rfl nofun
  | lookup hpc => exact .of_eq rfl rfl (by simp [Proc.registered, LoopPc.registered, hpc])
  | _ => exact .of_eq rfl rfl nofun

theorem WrapperStep.registers {w w' : Wrapper R} (h : WrapperStep cfg sh w sh' w') :
    Registers cfg sh sh' (.wrapper w) (.wrapper w') := by
  cases h with
  | remove hkind hpc =>
    exact .removed (t := w.task) hkind rfl rfl (by simp [Proc.registered, WrapperPc.left, hpc]) rfl
  | countOut hkind hpc hshard => exact .of_setShard rfl hshard rfl rfl nofun
  | finish | release | releasePanic => exact .of_eq rfl rfl nofun
  | _ => exact .of_eq rfl rfl (by simp [Proc.registered, WrapperPc.left, *])

theorem Proc.Step.registers {p p' : Proc R} (h : Proc.Step cfg pid sh p sh' p' sp) :
    Registers cfg sh sh' p p' := by
  cases h with
  | submit hstep => exact hstep.registers
  | loop hstep => exact hstep.registers
  | wrapper hstep => exact hstep.registers
  | bystander _ hby' hstep =>
    refine .of_eq hstep.1.active hstep.1.shards fun x hx => ?_
    cases p' with
    | submit | loop | wrapper => exact hby'.elim
    | _ => cases hx

omit [Semaphore σ] in
theorem Shared.holds_eq (hactive : sh'.active = sh.active) (hshards : sh'.shards = sh.shards) :
    sh'.holds cfg t i ↔ sh.holds cfg t i := by
  unfold holds shardSlots
  rw [hactive, hshards]

/-- The process that a step starts takes over the registration. -/
theorem Proc.Step.started_registered {p p' q : Proc R} {x : Nat × Nat}
    (h : Proc.Step cfg pid sh p sh' p' (some q)) (hq : q.registered = some x) :
    p.registered = some x ∧ (sh.holds cfg x.1 x.2 → sh'.holds cfg x.1 x.2) := by
  cases h with
  | submit hstep =>
    cases hstep with
    | spawn hkind hpc =>
      refine ⟨?_, (Shared.holds_eq rfl rfl).mpr⟩
      simpa [registered, SubmitPc.registered, WrapperPc.left, hpc] using hq
  | loop hstep =>
    cases hstep with
    | spawn hpc =>
      refine ⟨?_, id⟩
      simpa [registered, LoopPc.registered, WrapperPc.left, hpc] using hq
  | bystander _ _ hstep =>
    have hby := hstep.2 q rfl
    cases q with
    | submit | loop | wrapper => exact hby.elim
    | _ => cases hq

/-- A started task stays with its process, or goes to the wrapper it spawns. -/
theorem Proc.Step.entered_kept {p p' : Proc R} (h : Proc.Step cfg pid sh p sh' p' sp)
    (hp : p.entered t) : p'.entered t ∨ ∃ q, sp = some q ∧ q.entered t := by
  rcases hp with ⟨i, hreg⟩ | ⟨w, rfl, htask⟩
  · cases h with
    | @submit c _ _ _ hstep =>
      have hc : c.pc.registered = some (t, i) := hreg
      cases hstep with
      | lookup hkind hpc =>
        exact .inl (.inl ⟨i, by simpa [registered, SubmitPc.registered, hpc] using hc⟩)
      | spawn hkind hpc =>
        refine .inr ⟨_, rfl, .inr ⟨_, rfl, ?_⟩⟩
        simp only [SubmitPc.registered, hpc, Option.some.injEq, Prod.mk.injEq] at hc
        exact hc.1
      | refuse hpc | reject hpc | abandon hpc =>
        rcases hpc with hpc | hpc <;> simp [SubmitPc.registered, hpc] at hc
      | _ => simp [SubmitPc.registered, *] at hc
    | @loop d _ _ _ hstep =>
      have hd : d.pc.registered = some (t, i) := hreg
      cases hstep with
      | lookup hpc => exact .inl (.inl ⟨i, by simpa [registered, LoopPc.registered, hpc] using hd⟩)
      | spawn hpc =>
        refine .inr ⟨_, rfl, .inr ⟨_, rfl, ?_⟩⟩
        simp only [LoopPc.registered, hpc, Option.some.injEq, Prod.mk.injEq] at hd
        exact hd.1
      | _ => simp [LoopPc.registered, *] at hd
    | @wrapper w _ w' hstep =>
      refine .inl (.inr ⟨w', rfl, hstep.task_kept.trans ?_⟩)
      exact Option.some.inj (carries_of_registered hreg)
    | bystander hby =>
      cases p with
      | submit | loop | wrapper => exact hby.elim
      | _ => cases hreg
  · cases h with
    | wrapper hstep => exact .inl (.inr ⟨_, rfl, hstep.task_kept.trans htask⟩)
    | bystander hby => exact hby.elim

/-- The `finished` flag of a task is raised by its wrapper, which leaves the
registry with that. -/
theorem Proc.Step.finishes {p p' : Proc R} (h : Proc.Step cfg pid sh p sh' p' sp)
    (hfinished : sh'.isFinished t = true) :
    sh.isFinished t = true ∨ ∃ w, p' = .wrapper w ∧ w.task = t ∧ w.pc.left = true := by
  cases h with
  | @submit c _ _ _ hstep =>
    refine .inl ?_
    cases hstep with
    | create | createScan =>
      by_cases ht : t = sh.nextTaskId
      · simp [Shared.isFinished, ht, Task.isFinished, Task.new, TaskCore.new] at hfinished
      · simpa [Shared.isFinished, ht] using hfinished
    | reject | selectCancelled | abandon | pushFails =>
      rwa [Shared.isFinished, Shared.withdraw_kept Task.isFinished Task.dropSender_isFinished
        fun _ => rfl] at hfinished
    | @push u lane l =>
      have hkept : ((sh.setLane lane { l with items := l.items ++ [u] }).modifyTask u
          Task.accept).isFinished t = sh.isFinished t :=
        Shared.modifyTask_kept Task.isFinished fun _ => rfl
      exact hkept ▸ hfinished
    | @spawn u =>
      have hkept : (sh.modifyTask u Task.accept).isFinished t = sh.isFinished t :=
        Shared.modifyTask_kept Task.isFinished fun _ => rfl
      exact hkept ▸ hfinished
    | _ => exact hfinished
  | loop hstep =>
    refine .inl ?_
    cases hstep with
    | recvDiscard | guardStop | exitHand | drain =>
      rwa [Shared.isFinished, Shared.modifyTask_kept Task.isFinished Task.dropSender_isFinished]
        at hfinished
    | cancelSend =>
      rwa [Shared.isFinished, Shared.modifyTask_kept Task.isFinished (Task.send_isFinished _)]
        at hfinished
    | _ => exact hfinished
  | @wrapper w _ _ hstep =>
    cases hstep with
    | pollPending | pollReady | pollPanicked =>
      have hkept : (sh.modifyTask w.task Task.countPoll).isFinished t = sh.isFinished t :=
        Shared.modifyTask_kept Task.isFinished fun _ => rfl
      exact .inl (hkept ▸ hfinished)
    | send | sendUnwind =>
      refine .inl ?_
      rwa [Shared.isFinished, Shared.modifyTask_kept Task.isFinished (Task.send_isFinished _)]
        at hfinished
    | unwind =>
      have hkept : (sh.releasePermit.modifyTask w.task Task.dropSender).isFinished t =
          sh.isFinished t := Shared.modifyTask_kept Task.isFinished Task.dropSender_isFinished
      exact .inl (hkept ▸ hfinished)
    | finish =>
      by_cases ht : t = w.task
      · exact .inr ⟨_, rfl, ht.symm, rfl⟩
      · exact .inl (by simpa [Shared.isFinished, ht] using hfinished)
    | _ => exact .inl hfinished
  | bystander _ _ hstep => exact .inl ((hstep.1.tasks t).isFinished.symm.trans hfinished)

/-! ## The invariant -/

/-- The registry agrees with the processes. -/
structure Registry (cfg : PoolConfig) (s : Pool σ R) : Prop where
  valid : s.shared.active.Valid
  shards : ∀ i a, s.shared.shardSlots i = some a → a.Valid
  finished : ∀ t, s.shared.isFinished t = true →
    ∃ pid w, s.At pid (.wrapper w) ∧ w.task = t ∧ w.pc.left = true
  listed : ∀ pid p t i, s.At pid p → p.registered = some (t, i) → s.shared.holds cfg t i
  entered : ∀ t i, s.shared.holds cfg t i → ∃ pid p, s.At pid p ∧ p.entered t

theorem WrapperStep.left_kept {w w' : Wrapper R} (h : WrapperStep cfg sh w sh' w')
    (hleft : w.pc.left = true) : w'.pc.left = true := by
  cases h <;> simp_all [WrapperPc.left]

section Invariant

variable {s : Pool σ R} {p p' : Proc R} {ok : Pool σ R → PoolEvent R → Prop}

/-- A registered task is not finished. -/
theorem Registry.unfinished (hreach : (poolMachine σ R cfg).Reachable ok s) (hs : Registry cfg s)
    (hp : s.At pid p) (hreg : p.registered = some (t, i)) : s.shared.isFinished t = false := by
  rw [← Bool.not_eq_true]
  intro hfinished
  obtain ⟨qid, w, hw, htask, hleft⟩ := hs.finished t hfinished
  obtain rfl := carrier_unique hreach hp hw (Proc.carries_of_registered hreg) (congrArg some htask)
  obtain rfl := Option.some.inj (hp.symm.trans hw)
  simp [Proc.registered, hleft] at hreg

/-- A wrapper that has left the registry stays out of it. -/
theorem Proc.Step.left_stays (hp : s.At pid p) (hstep : Proc.Step cfg pid s.shared p sh p' sp)
    (h : ∃ pid w, s.At pid (.wrapper w) ∧ w.task = t ∧ w.pc.left = true) :
    ∃ qid w, (s.update pid sh p' sp).At qid (.wrapper w) ∧ w.task = t ∧ w.pc.left = true := by
  obtain ⟨qid, w, hw, htask, hleft⟩ := h
  by_cases hne : qid = pid
  · subst hne
    obtain rfl := Option.some.inj (hp.symm.trans hw)
    cases hstep with
    | wrapper hstep =>
      exact ⟨qid, _, Threads.update_self hp, hstep.task_kept.trans htask, hstep.left_kept hleft⟩
    | bystander hby => exact hby.elim
  · exact ⟨qid, w, Threads.update_other hne hw, htask, hleft⟩

theorem Registry.update (hreach : (poolMachine σ R cfg).Reachable ok s) (hs : Registry cfg s)
    (hp : s.At pid p) (hstep : Proc.Step cfg pid s.shared p sh p' sp) :
    Registry cfg (s.update pid sh p' sp) := by
  have hreg := hstep.registers
  refine ⟨hreg.valid hs.valid, hreg.shards_valid hs.shards, fun t ht => ?_,
    fun qid q t i hq hqreg => ?_, fun t i hholds => ?_⟩
  · rcases hstep.finishes ht with hold | ⟨w, rfl, htask, hleft⟩
    · exact hstep.left_stays hp (hs.finished t hold)
    · exact ⟨pid, w, Threads.update_self hp, htask, hleft⟩
  · have hkept {qid : Nat} {q : Proc R} (hq : s.At qid q) (hqreg : q.registered = some (t, i)) :=
      hreg.holds_kept hs.valid hs.shards (hs.listed qid q t i hq hqreg)
        (hs.unfinished hreach hq hqreg)
    rcases Threads.update_getElem? hp hq with ⟨rfl, rfl⟩ | ⟨hne, hold⟩ | ⟨_, rfl⟩
    · rcases hreg.listed_new hs.valid hs.shards hqreg with hpreg | hnew
      · rcases hkept hp hpreg with hkept | ⟨hnone, _⟩
        · exact hkept
        · rw [hnone] at hqreg
          cases hqreg
      · exact hnew
    · rcases hkept hold hqreg with hkept | ⟨_, u, hpreg, hsame⟩
      · exact hkept
      -- the slot of another process is not the one that is removed
      · obtain rfl := hsame (hs.listed pid p u i hp hpreg)
        exact absurd (carrier_unique hreach hold hp (Proc.carries_of_registered hqreg)
          (Proc.carries_of_registered hpreg)) hne
    · obtain ⟨hpreg, hkept⟩ := hstep.started_registered hqreg
      exact hkept (hs.listed pid p t i hp hpreg)
  · rcases hreg.holds_new hs.valid hs.shards hholds with hold | hnew
    · obtain ⟨qid, q, hq, hentered⟩ := hs.entered t i hold
      by_cases hne : qid = pid
      · subst hne
        obtain rfl := Option.some.inj (hp.symm.trans hq)
        rcases hstep.entered_kept hentered with hself | ⟨q, rfl, hnew⟩
        · exact ⟨qid, p', Threads.update_self hp, hself⟩
        · exact ⟨s.procs.length, q, Threads.update_new q, hnew⟩
      · exact ⟨qid, q, Threads.update_other hne hq, hentered⟩
    · exact ⟨pid, p', Threads.update_self hp, .inl ⟨i, hnew⟩⟩

/-- The shards of a new pool are empty. -/
theorem Shared.shardSlots_new {a : ActiveSlots Nat}
    (ha : (Shared.new cfg : Shared σ R).shardSlots i = some a) : a = .empty := by
  unfold shardSlots Shared.new at ha
  cases hkind : cfg.kind with
  | strict => simp [hkind] at ha
  | rlxd =>
    simp only [hkind, List.getElem?_replicate, Option.map_eq_some_iff] at ha
    obtain ⟨r, hr, rfl⟩ := ha
    split at hr
    · cases hr
      rfl
    · cases hr

theorem registry (h : (poolMachine σ R cfg).Reachable ok s) : Registry cfg s := by
  refine Pool.induct .refl ?_ ?_ h ?_
  · intro s b pid p sh p' sp hreach hs _ hp hstep
    exact hs.update hreach hp hstep
  · intro s c sh sp _ hs _ hquiet hfresh
    have hslots : ∀ i, sh.shardSlots i = s.shared.shardSlots i := fun i =>
      Registers.shardSlots_eq hquiet.shards i
    refine ⟨hquiet.active ▸ hs.valid, fun i a ha => hs.shards i a (hslots i ▸ ha), fun t ht => ?_,
      fun qid q t i hq hqreg => ?_, fun t i hholds => ?_⟩
    · obtain ⟨qid, w, hw, hrest⟩ := hs.finished t ((hquiet.tasks t).isFinished.symm.trans ht)
      exact ⟨qid, w, Threads.spawn_other hw, hrest⟩
    · rcases Threads.spawn_getElem? hq with hold | ⟨_, hnew⟩
      · exact (Shared.holds_eq hquiet.active hquiet.shards).mpr (hs.listed qid q t i hold hqreg)
      · cases hfresh q hnew with
        | bystander hby =>
          cases q with
          | submit | loop | wrapper => exact hby.elim
          | _ => cases hqreg
        | submit => cases hqreg
    · obtain ⟨qid, q, hq, hentered⟩ :=
        hs.entered t i ((Shared.holds_eq hquiet.active hquiet.shards).mp hholds)
      exact ⟨qid, q, Threads.spawn_other hq, hentered⟩
  · have hempty : ∀ i a, (Shared.new cfg : Shared σ R).shardSlots i = some a → a = .empty :=
      fun _ _ => Shared.shardSlots_new
    refine ⟨ActiveSlots.valid_empty, fun i a ha => ?_, nofun, fun pid p t i hp hreg => ?_,
      fun t i hholds => ?_⟩
    · rw [hempty i a ha]
      exact ActiveSlots.valid_empty
    · obtain ⟨-, rfl⟩ := Pool.init_loop hp
      cases hreg
    · unfold Shared.holds at hholds
      split at hholds
      · simp [poolMachine, Program.machine, Pool.new, Shared.new] at hholds
      · obtain ⟨a, j, ha, hget⟩ := hholds
        rw [hempty i a ha] at hget
        simp at hget

end Invariant

end FuturesOrchestra
