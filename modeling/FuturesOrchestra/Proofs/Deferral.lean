import FuturesOrchestra.Lib.Threads
import FuturesOrchestra.Proofs.SlotMap

/-!
# Deferred removal

One shard of the relaxed pool under any number of concurrent tasks, in atomic steps:
`insert` counts, takes the write lock, looks at the slots one by one when none is free,
and stores; a task marks its core finished and counts itself out without the lock, also
while another one sweeps. Next to the shard stands the registry it is meant to be, from
which a core is removed in the instant in which it is marked finished.
-/

namespace FuturesOrchestra

open Interleaving

/-! ## The sweep, slot by slot -/

namespace ActiveSlots

variable {α : Type} {a : ActiveSlots α} {isFinished : α → Bool} {i : Nat}

/-- One iteration of the loop of `sweep_finished`. -/
def sweepSlot (isFinished : α → Bool) (index : Nat) (a : ActiveSlots α) : ActiveSlots α :=
  if (a.get index).any isFinished then ⟨a.slots.set index none, index :: a.free⟩ else a

theorem exists_of_any {slot : Option α} (h : slot.any isFinished = true) :
    ∃ core, slot = some core ∧ isFinished core = true := by
  simpa [Option.any_eq_true] using h

theorem sweepSlot_eq (isFinished : α → Bool) (index : Nat) (a : ActiveSlots α) :
    a.sweepSlot isFinished index =
      if (a.get index).any isFinished then a.remove index else a := by
  unfold sweepSlot
  split
  · next hany =>
    obtain ⟨core, hget, -⟩ := exists_of_any hany
    rw [remove, get_eq_some.mp hget]
  · rfl

theorem Valid.sweepSlot (h : a.Valid) (isFinished : α → Bool) (index : Nat) :
    (a.sweepSlot isFinished index).Valid := by
  rw [sweepSlot_eq]
  split
  · exact h.remove index
  · exact h

theorem get_sweepSlot (isFinished : α → Bool) (index i : Nat) (a : ActiveSlots α) :
    (a.sweepSlot isFinished index).get i =
      if i = index then (a.get i).filter (!isFinished ·) else a.get i := by
  rw [sweepSlot_eq]
  split
  · next hany =>
    obtain ⟨core, hget, hfinished⟩ := exists_of_any hany
    rw [get_remove]
    split
    · next hi => rw [hi, hget, Option.filter_some, hfinished]; rfl
    · rfl
  · next hany =>
    split
    · next hi =>
      subst hi
      cases hget : a.get i with
      | none => rfl
      | some core =>
        rw [hget, Option.any_some, Bool.not_eq_true] at hany
        rw [Option.filter_some, hany]
        rfl
    · rfl

theorem length_slots_sweepSlot (isFinished : α → Bool) (index : Nat) (a : ActiveSlots α) :
    (a.sweepSlot isFinished index).slots.length = a.slots.length := by
  unfold sweepSlot
  split
  · exact List.length_set
  · rfl

/-- A sweep that finds a finished core has a free slot then. -/
theorem free_sweepSlot (isFinished : α → Bool) (index : Nat) (a : ActiveSlots α) :
    (a.sweepSlot isFinished index).free =
      if (a.get index).any isFinished then index :: a.free else a.free := by
  unfold sweepSlot
  split <;> rfl

theorem foldl_sweepSlot_append (isFinished : α → Bool) (done rest : List (Option α))
    (free : List Nat) :
    (List.range' done.length rest.length).foldl (fun b i => sweepSlot isFinished i b)
      ⟨done ++ rest, free⟩ =
      ⟨done ++ (sweepFrom isFinished done.length rest free).1,
        (sweepFrom isFinished done.length rest free).2⟩ := by
  induction rest generalizing done free with
  | nil => rfl
  | cons slot rest ih =>
    have hget : (⟨done ++ slot :: rest, free⟩ : ActiveSlots α).get done.length = slot := by
      simp [get]
    have hassoc (o : Option α) (l : List (Option α)) : done ++ o :: l = done ++ [o] ++ l := by simp
    have hlength (o : Option α) : (done ++ [o]).length = done.length + 1 := by simp
    rw [List.length_cons, List.range'_succ, List.foldl_cons, sweepSlot, hget, sweepFrom]
    split
    · have hset : (done ++ slot :: rest).set done.length none = done ++ [none] ++ rest := by simp
      have hrest := ih (done ++ [none]) (done.length :: free)
      rw [hlength] at hrest
      rw [hset, hrest,
        hassoc none (sweepFrom isFinished (done.length + 1) rest (done.length :: free)).1]
    · have hrest := ih (done ++ [slot]) free
      rw [hlength] at hrest
      rw [hassoc slot rest, hrest,
        hassoc slot (sweepFrom isFinished (done.length + 1) rest free).1]

/-- The sweep looks at the slots one by one. -/
theorem sweepFinished_eq (isFinished : α → Bool) (a : ActiveSlots α) :
    a.sweepFinished isFinished =
      (List.range' 0 a.slots.length).foldl (fun b i => sweepSlot isFinished i b) a :=
  (foldl_sweepSlot_append isFinished [] a.slots a.free).symm

end ActiveSlots

/-! ## A shard and its tasks -/

/-- Where a task stands. It holds the write lock of its shard at `sweep` and `store`, and
`running` is its time from the end of `insert` to `mark_finished`. -/
inductive TenantPc
  | count
  | lock
  | sweep (index : Nat)
  | store
  | running
  | finish
  | gone
deriving DecidableEq, Repr

/-- A shard and its history: the finished flags of the cores and the write lock, how many
inserts have begun and how many tasks have counted themselves out, the eager registry, and
the largest number of cores that were ever unfinished at once, with the core that is being
inserted under the lock. Cores are named by the processes they belong to. -/
structure Shard where
  registry : DeferredRegistry Nat
  finished : Nat → Bool
  locked : Bool
  begun : Nat
  ended : Nat
  eager : List Nat
  peak : Nat

namespace Shard

def new : Shard := ⟨.empty, fun _ => false, false, 0, 0, [], 0⟩

/-- The slots of the shard after an operation on them. -/
def setSlots (sh : Shard) (a : ActiveSlots Nat) : Shard :=
  { sh with registry := { sh.registry with slots := a } }

/-- The next step of the task of `core`: `DeferredRegistry::insert` up to `running`, then
`mark_finished` and `finish`. The number of unfinished cores grows when an insert takes the
lock. -/
def step (core : Nat) (sh : Shard) : TenantPc → Option (Shard × TenantPc)
  | .count => some ({ sh with registry := sh.registry.count, begun := sh.begun + 1 }, .lock)
  | .lock =>
    if sh.locked then none
    else some ({ sh with locked := true, peak := max sh.peak (sh.eager.length + 1) },
      if sh.registry.slots.free.isEmpty then .sweep 0 else .store)
  | .sweep index =>
    if index < sh.registry.slots.slots.length then
      some (sh.setSlots (sh.registry.slots.sweepSlot sh.finished index), .sweep (index + 1))
    else some (sh, .store)
  | .store =>
    some ({ sh.setSlots (sh.registry.slots.insert core).1 with
      locked := false, eager := sh.eager ++ [core] }, .running)
  | .running =>
    some ({ sh with
      finished := fun c => c == core || sh.finished c, eager := sh.eager.erase core }, .finish)
  | .finish => some ({ sh with registry := sh.registry.finish, ended := sh.ended + 1 }, .gone)
  | .gone => none

end Shard

/-- Any number of tasks in one shard. -/
def tenancy : Program Shard TenantPc Unit Unit :=
  ⟨fun _ pid sh pc => (sh.step pid pc).map fun next => (next.1, next.2, none),
    fun _ sh => some (sh, some .count)⟩

/-- The histories of a shard. -/
def shardMachine : Machine (Threads Shard TenantPc) (Event Unit Unit) :=
  tenancy.machine ⟨.new, []⟩

namespace TenantPc

/-- The task holds the write lock. -/
def locking : TenantPc → Nat
  | .sweep _ | .store => 1
  | _ => 0

/-- The task has been counted and has not counted itself out. -/
def inFlight : TenantPc → Nat
  | .count | .gone => 0
  | _ => 1

/-- The core is marked finished. -/
def finishing : TenantPc → Bool
  | .finish | .gone => true
  | _ => false

/-- The core has been stored. -/
def stored : TenantPc → Bool
  | .running | .finish | .gone => true
  | _ => false

end TenantPc

/-- `ShardStep core sh pc sh' pc'`: a step of the task of `core`. -/
inductive ShardStep (core : Nat) (sh : Shard) : TenantPc → Shard → TenantPc → Prop
  | count :
      ShardStep core sh .count { sh with registry := sh.registry.count, begun := sh.begun + 1 } .lock
  | lock (hunlocked : sh.locked = false) (hfull : sh.registry.slots.free = []) :
      ShardStep core sh .lock
        { sh with locked := true, peak := max sh.peak (sh.eager.length + 1) } (.sweep 0)
  | lockRoom (hunlocked : sh.locked = false) (hroom : sh.registry.slots.free ≠ []) :
      ShardStep core sh .lock
        { sh with locked := true, peak := max sh.peak (sh.eager.length + 1) } .store
  | sweep {index : Nat} (hindex : index < sh.registry.slots.slots.length) :
      ShardStep core sh (.sweep index)
        (sh.setSlots (sh.registry.slots.sweepSlot sh.finished index)) (.sweep (index + 1))
  | swept {index : Nat} (hindex : sh.registry.slots.slots.length ≤ index) :
      ShardStep core sh (.sweep index) sh .store
  | store :
      ShardStep core sh .store
        { sh.setSlots (sh.registry.slots.insert core).1 with
          locked := false, eager := sh.eager ++ [core] } .running
  | mark :
      ShardStep core sh .running
        { sh with
          finished := fun c => c == core || sh.finished c, eager := sh.eager.erase core } .finish
  | finish :
      ShardStep core sh .finish
        { sh with registry := sh.registry.finish, ended := sh.ended + 1 } .gone

section Steps

variable {s : Threads Shard TenantPc} {ok : Threads Shard TenantPc → Event Unit Unit → Prop}
  {core pid qid : Nat} {sh sh' : Shard} {pc pc' : TenantPc} {sp : Option TenantPc}

theorem ShardStep.of_run {b : Unit} (h : tenancy.run b core sh pc = some (sh', pc', sp)) :
    ShardStep core sh pc sh' pc' ∧ sp = none := by
  obtain ⟨⟨_, _⟩, hstep, heq⟩ := Option.map_eq_some_iff.mp h
  cases heq
  refine ⟨?_, rfl⟩
  cases pc with
  | lock =>
    simp only [Shard.step] at hstep
    split at hstep
    · cases hstep
    · next hunlocked =>
      cases hstep
      rw [Bool.not_eq_true] at hunlocked
      split
      · next hfull => exact .lock hunlocked (List.isEmpty_iff.mp hfull)
      · next hroom => exact .lockRoom hunlocked fun hfull => hroom (List.isEmpty_iff.mpr hfull)
  | sweep index =>
    simp only [Shard.step] at hstep
    split at hstep
    · next hindex =>
      cases hstep
      exact .sweep hindex
    · next hindex =>
      cases hstep
      exact .swept (Nat.le_of_not_lt hindex)
  | count =>
    cases hstep
    exact .count
  | store =>
    cases hstep
    exact .store
  | running =>
    cases hstep
    exact .mark
  | finish =>
    cases hstep
    exact .finish
  | gone => cases hstep

/-- A step of a shard: one of a task, or a new task. -/
theorem shard_step {e : Event Unit Unit} {s' : Threads Shard TenantPc}
    (h : shardMachine.step s e = some s') :
    (∃ b pid pc sh pc', e = .run b pid ∧ s.At pid pc ∧ ShardStep pid s.shared pc sh pc' ∧
      s' = s.update pid sh pc' none) ∨
    s' = s.spawn s.shared (some .count) := by
  cases e with
  | run b pid =>
    have hstepped : tenancy.step s (.run b pid) = some s' := h
    obtain ⟨pc, sh, pc', sp, hpc, hrun, rfl⟩ := Program.step_run hstepped
    obtain ⟨hrule, rfl⟩ := ShardStep.of_run hrun
    exact .inl ⟨b, pid, pc, sh, pc', rfl, hpc, hrule, rfl⟩
  | call c =>
    have hstepped : tenancy.step s (.call c) = some s' := h
    obtain ⟨sh, sp, hcall, rfl⟩ := Program.step_call hstepped
    obtain ⟨rfl, rfl⟩ := Prod.mk.inj (Option.some.inj hcall)
    exact .inr rfl

/-- The induction rule of the histories of a shard. -/
theorem shard_induct {I : Threads Shard TenantPc → Prop} (h : shardMachine.Reachable ok s)
    (hstep : ∀ {s pid pc sh pc'}, shardMachine.Reachable ok s → I s → s.At pid pc →
      ShardStep pid s.shared pc sh pc' → I (s.update pid sh pc' none))
    (hspawn : ∀ {s}, I s → I (s.spawn s.shared (some .count))) (hinit : I ⟨.new, []⟩) : I s := by
  refine (h.invariant (I := fun s => shardMachine.Reachable ok s ∧ I s) ?_ ⟨.refl, hinit⟩).2
  rintro s e s' ⟨hreach, hs⟩ hok hnext
  refine ⟨hreach.tail hok hnext, ?_⟩
  rcases shard_step hnext with ⟨_, pid, pc, sh, pc', rfl, hpc, hrule, rfl⟩ | rfl
  · exact hstep hreach hs hpc hrule
  · exact hspawn hs

theorem at_update (hpc : s.At pid pc) {q : TenantPc} :
    (s.update pid sh pc' none).At qid q ↔ (qid = pid ∧ q = pc') ∨ (qid ≠ pid ∧ s.At qid q) := by
  constructor
  · intro hq
    rcases Threads.update_getElem? hpc hq with hself | hother | ⟨-, hnew⟩
    · exact .inl hself
    · exact .inr hother
    · cases hnew
  · rintro (⟨rfl, rfl⟩ | ⟨hne, hq⟩)
    · exact Threads.update_self hpc
    · exact Threads.update_other hne hq

theorem at_spawn {q : TenantPc} :
    (s.spawn sh (some .count)).At qid q ↔ s.At qid q ∨ (qid = s.procs.length ∧ q = .count) := by
  constructor
  · intro hq
    rcases Threads.spawn_getElem? hq with hold | ⟨hnew, heq⟩
    · exact .inl hold
    · exact .inr ⟨hnew, (Option.some.inj heq).symm⟩
  · rintro (hold | ⟨rfl, rfl⟩)
    · exact Threads.spawn_other hold
    · exact Threads.spawn_new _

/-! ## An insert that nobody disturbs -/

theorem shard_run (hp : s.At pid pc) (h : s.shared.step pid pc = some (sh, pc')) :
    shardMachine.step s (.run () pid) = some (s.update pid sh pc' none) := by
  refine Program.step_of_run hp ?_
  show (s.shared.step pid pc).map _ = some (sh, pc', none)
  rw [h]
  rfl

/-- A sweep that is left alone clears the slots from `index` on one by one. -/
theorem sweep_alone {index n : Nat} (hp : s.At pid (.sweep index))
    (hn : index + n = s.shared.registry.slots.slots.length) :
    ∃ s', shardMachine.Steps (fun _ e => e = .run () pid) s s' ∧ s'.At pid .store ∧
      s'.shared = s.shared.setSlots ((List.range' index n).foldl
        (fun a i => a.sweepSlot s.shared.finished i) s.shared.registry.slots) := by
  induction n generalizing s index with
  | zero =>
    have hswept : s.shared.step pid (.sweep index) = some (s.shared, .store) := if_neg (by omega)
    exact ⟨_, .tail .refl rfl (shard_run hp hswept), Threads.update_self hp, rfl⟩
  | succ n ih =>
    have hswept : s.shared.step pid (.sweep index) = some (_, .sweep (index + 1)) :=
      if_pos (by omega)
    have hself : (s.update pid (s.shared.setSlots (s.shared.registry.slots.sweepSlot
      s.shared.finished index)) (.sweep (index + 1)) none).At pid (.sweep (index + 1)) :=
      Threads.update_self hp
    have hlength := ActiveSlots.length_slots_sweepSlot s.shared.finished index
      s.shared.registry.slots
    obtain ⟨s', hsteps, hstore, hshared⟩ := ih hself <| by
      show index + 1 + n = (s.shared.registry.slots.sweepSlot s.shared.finished index).slots.length
      omega
    refine ⟨s', .trans (.tail .refl rfl (shard_run hp hswept)) hsteps, hstore, ?_⟩
    rw [List.range'_succ, List.foldl_cons]
    exact hshared

/-- An insert that has counted itself in and is left alone stores its core as
`DeferredRegistry.store` does in one step. -/
theorem insert_alone (hp : s.At pid .lock) (hunlocked : s.shared.locked = false) :
    ∃ s', shardMachine.Steps (fun _ e => e = .run () pid) s s' ∧ s'.At pid .running ∧
      s'.shared.registry = s.shared.registry.store s.shared.finished pid := by
  have hlocked := shard_run hp (show s.shared.step pid .lock = some (_, _) from
    if_neg (by simp [hunlocked]))
  rw [DeferredRegistry.store]
  by_cases hfull : s.shared.registry.slots.free.isEmpty
  · rw [if_pos hfull] at hlocked ⊢
    obtain ⟨s', hsteps, hstore, hshared⟩ := sweep_alone (Threads.update_self hp) (Nat.zero_add _)
    refine ⟨_, .tail (.trans (.tail .refl rfl hlocked) hsteps) rfl (shard_run hstore rfl),
      Threads.update_self hstore, ?_⟩
    rw [ActiveSlots.sweepFinished_eq, Threads.update_shared, hshared]
    rfl
  · rw [if_neg hfull] at hlocked ⊢
    exact ⟨_, .tail (.tail .refl rfl hlocked) rfl (shard_run (Threads.update_self hp) rfl),
      Threads.update_self (Threads.update_self hp), rfl⟩

/-! ## Counters -/

/-- Whoever sweeps or stores holds the lock. -/
theorem lock_held (h : shardMachine.Reachable ok s) :
    s.tally TenantPc.locking = s.shared.locked.toNat := by
  refine shard_induct (I := fun s => s.tally TenantPc.locking = s.shared.locked.toNat) h ?_ ?_ rfl
  · intro s pid pc sh pc' _ hs hpc hstep
    have htally := Threads.tally_update TenantPc.locking sh pc' none hpc
    have hle := Threads.le_tally (g := TenantPc.locking) hpc
    have hone := Bool.toNat_le s.shared.locked
    rw [hs] at htally hle
    rw [Threads.started_none, Nat.add_zero] at htally
    cases hstep with
    | lock hunlocked | lockRoom hunlocked =>
      rw [hunlocked] at htally
      exact htally
    | store =>
      have hlocked : 1 ≤ s.shared.locked.toNat := hle
      have hzero : (s.update pid _ .running none).tally TenantPc.locking + 1 =
        s.shared.locked.toNat + 0 := htally
      show _ = 0
      omega
    | _ => exact Nat.add_right_cancel htally
  · intro s hs
    rw [Threads.tally_spawn, hs]
    rfl

/-- Nobody else sweeps or stores. -/
theorem lock_exclusive (h : shardMachine.Reachable ok s) (hp : s.At pid pc)
    (hlocks : pc.locking = 1) {q : TenantPc} (hq : s.At qid q) (hq' : q.locking = 1) :
    qid = pid := by
  by_contra hne
  have htwo := Threads.add_le_tally (g := TenantPc.locking) hne hq hp
  have hheld := lock_held h
  have hone := Bool.toNat_le s.shared.locked
  omega

/-- The counter is the number of tasks in flight. -/
theorem in_flight_counted (h : shardMachine.Reachable ok s) :
    s.tally TenantPc.inFlight = s.shared.registry.inFlight := by
  refine shard_induct (I := fun s => s.tally TenantPc.inFlight = s.shared.registry.inFlight)
    h ?_ ?_ rfl
  · intro s pid pc sh pc' _ hs hpc hstep
    have htally := Threads.tally_update TenantPc.inFlight sh pc' none hpc
    have hle := Threads.le_tally (g := TenantPc.inFlight) hpc
    rw [hs] at htally hle
    rw [Threads.started_none, Nat.add_zero] at htally
    cases hstep with
    | count => exact htally
    | finish =>
      have hpos : 1 ≤ s.shared.registry.inFlight := hle
      have hfewer : (s.update pid _ .gone none).tally TenantPc.inFlight + 1 =
        s.shared.registry.inFlight + 0 := htally
      show _ = s.shared.registry.inFlight - 1
      omega
    | _ => exact Nat.add_right_cancel htally
  · intro s hs
    rw [Threads.tally_spawn, hs]
    rfl

/-- A task that is about to count itself out is counted. -/
theorem in_flight_pos (h : shardMachine.Reachable ok s) (hp : s.At pid pc)
    (hpc : pc.inFlight = 1) : 0 < s.shared.registry.inFlight := by
  have hle := Threads.le_tally (g := TenantPc.inFlight) hp
  rw [in_flight_counted h, hpc] at hle
  exact hle

/-- Every insert that has begun is still in flight or has been counted out. -/
theorem inserts_counted (h : shardMachine.Reachable ok s) :
    s.shared.registry.inFlight + s.shared.ended = s.shared.begun := by
  refine shard_induct
    (I := fun s => s.shared.registry.inFlight + s.shared.ended = s.shared.begun) h ?_ ?_ rfl
  · intro s pid pc sh pc' hreach hs hpc hstep
    cases hstep with
    | count =>
      show s.shared.registry.inFlight + 1 + s.shared.ended = s.shared.begun + 1
      omega
    | finish =>
      have hpos := in_flight_pos hreach hpc rfl
      show s.shared.registry.inFlight - 1 + (s.shared.ended + 1) = s.shared.begun
      omega
    | _ => exact hs
  · intro s hs
    exact hs

/-! ## The slots and the eager registry -/

/-- The slots, the flags and the eager registry agree with the tasks. -/
structure Housed (s : Threads Shard TenantPc) : Prop where
  valid : s.shared.registry.slots.Valid
  finished : ∀ c, s.shared.finished c = true ↔ ∃ pc, s.At c pc ∧ pc.finishing = true
  nodup : s.shared.eager.Nodup
  eager : ∀ c, c ∈ s.shared.eager ↔ s.At c .running
  unique : ∀ i j c, s.shared.registry.slots.get i = some c →
    s.shared.registry.slots.get j = some c → i = j
  stored : ∀ i c, s.shared.registry.slots.get i = some c → ∃ pc, s.At c pc ∧ pc.stored = true
  listed : ∀ c, s.At c .running → ∃ i, s.shared.registry.slots.get i = some c

namespace Housed

theorem not_finished (hs : Housed s) (hp : s.At core pc) (hpc : pc.finishing = false) :
    s.shared.finished core = false := by
  rw [← Bool.not_eq_true, hs.finished]
  rintro ⟨q, hq, hover⟩
  obtain rfl := Option.some.inj (hp.symm.trans hq)
  rw [hpc] at hover
  cases hover

/-- What a step does to a core's task. -/
theorem exists_update {P : TenantPc → Bool} (pc' : TenantPc) (hp : s.At pid pc)
    (hsame : P pc' = P pc) (c : Nat) :
    (∃ q, (s.update pid sh pc' none).At c q ∧ P q = true) ↔ ∃ q, s.At c q ∧ P q = true := by
  constructor
  · rintro ⟨q, hq, hP⟩
    rcases (at_update hp).mp hq with ⟨rfl, rfl⟩ | ⟨-, hold⟩
    · exact ⟨pc, hp, hsame ▸ hP⟩
    · exact ⟨q, hold, hP⟩
  · rintro ⟨q, hq, hP⟩
    by_cases hc : c = pid
    · subst hc
      obtain rfl := Option.some.inj (hp.symm.trans hq)
      exact ⟨pc', Threads.update_self hp, hsame.trans hP⟩
    · exact ⟨q, Threads.update_other hc hq, hP⟩

/-- A step that is neither a store nor a mark keeps the agreement, when it takes no core out of
the slots but finished ones and brings none. -/
theorem calm (hs : Housed s) (hp : s.At pid pc) (hover : pc'.finishing = pc.finishing)
    (hstored : pc'.stored = pc.stored) (hrunning : pc ≠ .running ∧ pc' ≠ .running)
    (hvalid : sh.registry.slots.Valid) (hfinished : sh.finished = s.shared.finished)
    (heager : sh.eager = s.shared.eager)
    (hold : ∀ i c, sh.registry.slots.get i = some c → s.shared.registry.slots.get i = some c)
    (hkept : ∀ i c, s.shared.registry.slots.get i = some c → s.shared.finished c = false →
      sh.registry.slots.get i = some c) : Housed (s.update pid sh pc' none) := by
  have hrun (c : Nat) : (s.update pid sh pc' none).At c .running ↔ s.At c .running := by
    rw [at_update hp]
    constructor
    · rintro (⟨-, heq⟩ | ⟨-, hc⟩)
      · exact absurd heq.symm hrunning.2
      · exact hc
    · intro hc
      refine .inr ⟨?_, hc⟩
      rintro rfl
      exact hrunning.1 (Option.some.inj (hp.symm.trans hc))
  refine ⟨hvalid, fun c => ?_, ?_, fun c => ?_, fun i j c hi hj => ?_, fun i c hi => ?_,
    fun c hc => ?_⟩
  · rw [Threads.update_shared, hfinished, hs.finished]
    exact (exists_update pc' hp hover c).symm
  · rw [Threads.update_shared, heager]
    exact hs.nodup
  · rw [Threads.update_shared, heager, hs.eager, hrun]
  · exact hs.unique i j c (hold i c hi) (hold j c hj)
  · exact (exists_update pc' hp hstored c).mpr (hs.stored i c (hold i c hi))
  · have hbefore := (hrun c).mp hc
    obtain ⟨i, hi⟩ := hs.listed c hbefore
    exact ⟨i, hkept i c hi (hs.not_finished hbefore rfl)⟩

theorem store (hs : Housed s) (hp : s.At pid .store) :
    Housed (s.update pid { s.shared.setSlots (s.shared.registry.slots.insert pid).1 with
      locked := false, eager := s.shared.eager ++ [pid] } .running none) := by
  have hget (i : Nat) := ActiveSlots.get_insert hs.valid pid i
  have hfresh : ∀ i, s.shared.registry.slots.get i ≠ some pid := by
    intro i hi
    obtain ⟨q, hq, hstored⟩ := hs.stored i pid hi
    obtain rfl := Option.some.inj (hp.symm.trans hq)
    cases hstored
  have hrun (c : Nat) : (s.update pid { s.shared.setSlots (s.shared.registry.slots.insert pid).1 with
      locked := false, eager := s.shared.eager ++ [pid] } .running none).At c .running ↔
      s.At c .running ∨ c = pid := by
    rw [at_update hp]
    constructor
    · rintro (⟨rfl, -⟩ | ⟨-, hc⟩)
      · exact .inr rfl
      · exact .inl hc
    · rintro (hc | rfl)
      · refine .inr ⟨?_, hc⟩
        rintro rfl
        cases hp.symm.trans hc
      · exact .inl ⟨rfl, rfl⟩
  refine ⟨hs.valid.insert pid, fun c => ?_, ?_, fun c => ?_, fun i j c hi hj => ?_,
    fun i c hi => ?_, fun c hc => ?_⟩
  · exact (hs.finished c).trans (exists_update (P := TenantPc.finishing) .running hp rfl c).symm
  · refine List.nodup_append.mpr ⟨hs.nodup, List.nodup_singleton _, ?_⟩
    rintro c hc _ hpid rfl
    rw [List.mem_singleton.mp hpid, hs.eager] at hc
    cases hp.symm.trans hc
  · rw [hrun, ← hs.eager]
    show c ∈ s.shared.eager ++ [pid] ↔ _
    rw [List.mem_append, List.mem_singleton]
  · change (s.shared.registry.slots.insert pid).1.get i = some c at hi
    change (s.shared.registry.slots.insert pid).1.get j = some c at hj
    rw [hget] at hi hj
    split at hi <;> split at hj
    · next hi' hj' => rw [hi', hj']
    · exact absurd (hj.trans hi.symm) (hfresh j)
    · exact absurd (hi.trans hj.symm) (hfresh i)
    · exact hs.unique i j c hi hj
  · change (s.shared.registry.slots.insert pid).1.get i = some c at hi
    rw [hget] at hi
    split at hi
    · obtain rfl := Option.some.inj hi
      exact ⟨.running, Threads.update_self hp, rfl⟩
    · obtain ⟨q, hq, hstored⟩ := hs.stored i c hi
      refine ⟨q, Threads.update_other ?_ hq, hstored⟩
      rintro rfl
      exact hfresh i hi
  · show ∃ i, (s.shared.registry.slots.insert pid).1.get i = some c
    rcases (hrun c).mp hc with hold | rfl
    · obtain ⟨i, hi⟩ := hs.listed c hold
      refine ⟨i, ?_⟩
      rw [hget, if_neg]
      · exact hi
      · rintro rfl
        rw [ActiveSlots.get_insert_slot hs.valid] at hi
        cases hi
    · exact ⟨_, by rw [hget, if_pos rfl]⟩

theorem mark (hs : Housed s) (hp : s.At pid .running) :
    Housed (s.update pid { s.shared with
      finished := fun c => c == pid || s.shared.finished c
      eager := s.shared.eager.erase pid } .finish none) := by
  have hrun (c : Nat) : (s.update pid { s.shared with
      finished := fun c => c == pid || s.shared.finished c
      eager := s.shared.eager.erase pid } .finish none).At c .running ↔ c ≠ pid ∧ s.At c .running := by
    rw [at_update hp]
    constructor
    · rintro (⟨-, heq⟩ | hc)
      · cases heq
      · exact hc
    · exact .inr
  refine ⟨hs.valid, fun c => ?_, hs.nodup.erase pid, fun c => ?_, hs.unique, fun i c hi => ?_,
    fun c hc => hs.listed c ((hrun c).mp hc).2⟩
  · show (c == pid || s.shared.finished c) = true ↔ _
    rw [Bool.or_eq_true, beq_iff_eq, hs.finished]
    constructor
    · rintro (rfl | ⟨q, hq, hover⟩)
      · exact ⟨.finish, Threads.update_self hp, rfl⟩
      · refine ⟨q, Threads.update_other ?_ hq, hover⟩
        rintro rfl
        obtain rfl := Option.some.inj (hp.symm.trans hq)
        cases hover
    · rintro ⟨q, hq, hover⟩
      rcases (at_update hp).mp hq with ⟨rfl, -⟩ | ⟨-, hold⟩
      · exact .inl rfl
      · exact .inr ⟨q, hold, hover⟩
  · rw [hrun, ← hs.eager]
    exact hs.nodup.mem_erase_iff
  · exact (exists_update (P := TenantPc.stored) .finish hp rfl c).mpr (hs.stored i c hi)

theorem step (hs : Housed s) (hp : s.At pid pc) (h : ShardStep pid s.shared pc sh pc') :
    Housed (s.update pid sh pc' none) := by
  cases h with
  | store => exact hs.store hp
  | mark => exact hs.mark hp
  | sweep hindex =>
    refine hs.calm hp rfl rfl ⟨nofun, nofun⟩ (hs.valid.sweepSlot _ _) rfl rfl ?_ ?_
    · intro i c hi
      change (s.shared.registry.slots.sweepSlot s.shared.finished _).get i = some c at hi
      rw [ActiveSlots.get_sweepSlot] at hi
      split at hi
      · exact (Option.filter_eq_some_iff.mp hi).1
      · exact hi
    · intro i c hi hunfinished
      show (s.shared.registry.slots.sweepSlot s.shared.finished _).get i = some c
      rw [ActiveSlots.get_sweepSlot, hi, Option.filter_some, hunfinished]
      split <;> rfl
  | _ => exact hs.calm hp rfl rfl ⟨nofun, nofun⟩ hs.valid rfl rfl (fun _ _ h => h) fun _ _ h _ => h

theorem spawn (hs : Housed s) : Housed (s.spawn s.shared (some .count)) := by
  have hcount {P : TenantPc → Bool} (hP : P .count = false) (c : Nat) :
      (∃ q, (s.spawn s.shared (some .count)).At c q ∧ P q = true) ↔ ∃ q, s.At c q ∧ P q = true := by
    constructor
    · rintro ⟨q, hq, hPq⟩
      rcases at_spawn.mp hq with hold | ⟨-, rfl⟩
      · exact ⟨q, hold, hPq⟩
      · rw [hP] at hPq
        cases hPq
    · rintro ⟨q, hq, hPq⟩
      exact ⟨q, Threads.spawn_other hq, hPq⟩
  have hrun (c : Nat) : (s.spawn s.shared (some .count)).At c .running ↔ s.At c .running := by
    rw [at_spawn]
    exact or_iff_left (by rintro ⟨-, heq⟩; cases heq)
  exact ⟨hs.valid, fun c => (hs.finished c).trans (hcount rfl c).symm, hs.nodup,
    fun c => (hs.eager c).trans (hrun c).symm, hs.unique,
    fun i c hi => (hcount rfl c).mpr (hs.stored i c hi), fun c hc => hs.listed c ((hrun c).mp hc)⟩

end Housed

theorem housed (h : shardMachine.Reachable ok s) : Housed s := by
  refine shard_induct h (fun _ hs hp hstep => hs.step hp hstep) (fun hs => hs.spawn) ?_
  refine ⟨ActiveSlots.valid_empty, fun c => ?_, List.nodup_nil, fun c => ?_, nofun, nofun, nofun⟩
  · show false = true ↔ ∃ pc, ([] : List TenantPc)[c]? = some pc ∧ _
    simp
  · show c ∈ [] ↔ ([] : List TenantPc)[c]? = some .running
    simp

/-! ## Reading -/

theorem Housed.nodup_allTokens (hs : Housed s) : s.shared.registry.slots.allTokens.Nodup :=
  ActiveSlots.nodup_allTokens hs.unique

/-- The unfinished cores in the slots are those of the eager registry. -/
theorem Housed.mem_eager (hs : Housed s) (c : Nat) :
    c ∈ s.shared.eager ↔
      c ∈ s.shared.registry.slots.allTokens ∧ s.shared.finished c = false := by
  rw [hs.eager, ActiveSlots.mem_allTokens]
  constructor
  · intro hc
    exact ⟨hs.listed c hc, hs.not_finished hc rfl⟩
  · rintro ⟨⟨i, hi⟩, hunfinished⟩
    obtain ⟨pc, hpc, hstored⟩ := hs.stored i c hi
    cases pc with
    | running => exact hpc
    | finish | gone =>
      rw [(hs.finished c).mpr ⟨_, hpc, rfl⟩] at hunfinished
      cases hunfinished
    | _ => cases hstored

theorem Housed.allTokens (hs : Housed s) :
    (s.shared.registry.allTokens s.shared.finished).Perm s.shared.eager := by
  refine (List.perm_ext_iff_of_nodup (hs.nodup_allTokens.filter _) hs.nodup).mpr fun c => ?_
  rw [hs.mem_eager, List.mem_filter, Bool.not_eq_true']

/-- The slots while somebody reads them: no insert takes the write lock or holds it. -/
def underReadLock (s : Threads Shard TenantPc) : Event Unit Unit → Bool
  | .run _ pid => (s.procs[pid]?).all fun pc => pc != .lock && pc.locking == 0
  | .call _ => true

/-- Under the read lock the slots stay as they are. -/
theorem slots_of_read {s' : Threads Shard TenantPc}
    (h : shardMachine.Steps (fun s e => underReadLock s e = true) s s') :
    s'.shared.registry.slots = s.shared.registry.slots := by
  refine h.invariant (I := fun u => u.shared.registry.slots = s.shared.registry.slots) ?_ rfl
  intro u e u' hu hok hnext
  rcases shard_step hnext with ⟨_, pid, pc, sh, pc', rfl, hpc, hrule, rfl⟩ | rfl
  · rw [underReadLock, hpc] at hok
    cases hrule with
    | lock | lockRoom | sweep | swept | store => cases hok
    | _ => exact hu
  · exact hu

/-- Deferred removal is invisible. After every history of a shard, in the middle of inserts
and sweeps too, its readers see exactly the eager registry, each of its cores once; the
counter is the number of inserts begun less the number of tasks counted out, and never
underflows; and when it is zero no unfinished core is in the slots. A reader whose loads of
the flags are spread over other tasks' steps sees no core twice, none that was not in the
eager registry when it began, and each that is there when it ends. -/
theorem deferred_removal_invisible (labelsOf : Nat → Finset TaskLabel)
    (s : Threads Shard TenantPc) (h : shardMachine.Reachable Machine.anyStep s) :
    (s.shared.registry.allTokens s.shared.finished).Perm s.shared.eager ∧
    (∀ labels, (s.shared.registry.tokensMatching s.shared.finished labelsOf labels).Perm
      (s.shared.eager.filter fun core => ¬Disjoint (labelsOf core) labels)) ∧
    s.shared.registry.inFlight + s.shared.ended = s.shared.begun ∧
    (∀ pid, s.At pid .finish → 0 < s.shared.registry.inFlight) ∧
    (s.shared.registry.len = 0 → ∀ i core, s.shared.registry.slots.get i = some core →
      s.shared.finished core = true) ∧
    ∀ (s' : Threads Shard TenantPc) (seen : Nat → Bool),
      shardMachine.Steps (fun s e => underReadLock s e = true) s s' →
      (∀ core, s.shared.finished core = true → seen core = true) →
      (∀ core, seen core = true → s'.shared.finished core = true) →
      (s.shared.registry.allTokens seen).Nodup ∧
        (∀ core ∈ s.shared.registry.allTokens seen, core ∈ s.shared.eager) ∧
        ∀ core ∈ s'.shared.eager, core ∈ s.shared.registry.allTokens seen := by
  have hs := housed h
  refine ⟨hs.allTokens, fun labels => hs.allTokens.filter _, inserts_counted h,
    fun pid hp => in_flight_pos h hp rfl, fun hlen i core hi => ?_, fun s' seen hsteps hstart hend => ?_⟩
  · obtain ⟨pc, hpc, hstored⟩ := hs.stored i core hi
    cases pc with
    | gone => exact (hs.finished core).mpr ⟨_, hpc, rfl⟩
    | running | finish =>
      have hpos := in_flight_pos h hpc rfl
      rw [DeferredRegistry.len] at hlen
      omega
    | _ => cases hstored
  · have hs' := housed (h.trans hsteps.any)
    have hmem (core : Nat) : core ∈ s.shared.registry.allTokens seen ↔
        core ∈ s.shared.registry.slots.allTokens ∧ seen core = false := by
      rw [DeferredRegistry.allTokens, List.mem_filter, Bool.not_eq_true']
    refine ⟨hs.nodup_allTokens.filter _, fun core hcore => ?_, fun core hcore => ?_⟩
    · obtain ⟨hstored, hunseen⟩ := (hmem core).mp hcore
      refine (hs.mem_eager core).mpr ⟨hstored, ?_⟩
      rw [← Bool.not_eq_true] at hunseen ⊢
      exact fun hfinished => hunseen (hstart core hfinished)
    · obtain ⟨hstored, hunfinished⟩ := (hs'.mem_eager core).mp hcore
      rw [slots_of_read hsteps] at hstored
      refine (hmem core).mpr ⟨hstored, ?_⟩
      rw [← Bool.not_eq_true] at hunfinished ⊢
      exact fun hseen => hunfinished (hend core hseen)

/-- Three tasks are inserted and the first one ends, without a sweep. -/
def unswept : Threads Shard TenantPc :=
  shardMachine.after (fun _ _ => true)
    ([.call (), .call (), .call ()] ++
      [0, 0, 0, 0, 1, 1, 1, 1, 1, 2, 2, 2, 2, 2, 2, 0, 0].map (.run ())) shardMachine.init

/-- A reader has loaded the flag of the second task when that task is marked finished. -/
def unsweptRead : Threads Shard TenantPc :=
  shardMachine.after underReadLock ([1].map (.run ())) unswept

theorem deferred_removal_invisible_unswept :
    unswept.shared.registry.slots.slots = [some 0, some 1, some 2] ∧
      (unswept.shared.registry.allTokens unswept.shared.finished).Perm [1, 2] ∧
      unswept.shared.registry.inFlight + 1 = 3 ∧
      unsweptRead.shared.eager = [2] ∧ 0 < unsweptRead.shared.registry.inFlight ∧
      (unswept.shared.registry.allTokens (· == 0)).Nodup ∧
      (∀ core ∈ unswept.shared.registry.allTokens (· == 0), core ∈ unswept.shared.eager) ∧
      ∀ core ∈ unsweptRead.shared.eager, core ∈ unswept.shared.registry.allTokens (· == 0) := by
  have hreach : shardMachine.Reachable Machine.anyStep unswept := (Machine.steps_after _ _ _ _).any
  have hread : shardMachine.Steps (fun s e => underReadLock s e = true) unswept unsweptRead :=
    Machine.steps_after _ _ _ _
  have hlaw := deferred_removal_invisible (fun _ => ∅) unswept hreach
  have hlater := deferred_removal_invisible (fun _ => ∅) unsweptRead (hreach.trans hread.any)
  have hended (core : Nat) : unswept.shared.finished core = (core == 0 || false) := rfl
  have hmarked (core : Nat) : unsweptRead.shared.finished core =
    (core == 1 || (core == 0 || false)) := rfl
  have hspread := hlaw.2.2.2.2.2 unsweptRead (· == 0) hread
    (fun core hcore => by simpa [hended] using hcore)
    (fun core hcore => by simpa [hmarked] using .inr (by simpa using hcore))
  exact ⟨by decide, hlaw.1, hlaw.2.2.1, by decide, hlater.2.2.2.1 1 rfl, hspread⟩

/-! ## Growth -/

/-- The array can take one more core within its peak. -/
def Shard.spare (sh : Shard) : Prop :=
  sh.registry.slots.free ≠ [] ∨ sh.registry.slots.slots.length + 1 ≤ sh.peak

/-- The insert that holds the lock finds room, or it is still going to find a finished core. -/
def TenantPc.roomy (sh : Shard) : TenantPc → Prop
  | .sweep index => sh.spare ∨ ∃ j core, index ≤ j ∧ sh.registry.slots.get j = some core ∧
      sh.finished core = true
  | .store => sh.spare
  | _ => True

theorem TenantPc.roomy_of_unlocked (h : pc.locking = 0) : pc.roomy sh := by
  cases pc <;> first | exact trivial | cases h

theorem TenantPc.roomy_mono (hslots : sh'.registry.slots = sh.registry.slots)
    (hpeak : sh.peak ≤ sh'.peak)
    (hfinished : ∀ c, sh.finished c = true → sh'.finished c = true) (h : pc.roomy sh) :
    pc.roomy sh' := by
  have hspare (h : sh.spare) : sh'.spare := by
    rw [Shard.spare, hslots]
    exact h.imp_right fun hroom => hroom.trans hpeak
  cases pc with
  | sweep index =>
    refine Or.imp hspare ?_ h
    rintro ⟨j, core, hj, hget, hcore⟩
    exact ⟨j, core, hj, hslots ▸ hget, hfinished core hcore⟩
  | store => exact hspare h
  | _ => exact trivial

/-- A full array in which nothing is finished has no more slots than there are cores. -/
theorem Housed.length_slots_le (hs : Housed s) (hfull : s.shared.registry.slots.free = [])
    (hnone : ¬∃ j core, s.shared.registry.slots.get j = some core ∧
      s.shared.finished core = true) :
    s.shared.registry.slots.slots.length ≤ s.shared.eager.length := by
  have hslots := ActiveSlots.length_slots hs.valid
  rw [hfull, List.length_nil, Nat.add_zero] at hslots
  rw [← hslots]
  refine (hs.nodup_allTokens.subperm fun core hcore => (hs.mem_eager core).mpr ⟨hcore, ?_⟩).length_le
  obtain ⟨j, hj⟩ := ActiveSlots.mem_allTokens.mp hcore
  rw [← Bool.not_eq_true]
  exact fun hfinished => hnone ⟨j, core, hj, hfinished⟩

/-- What holds of a shard while it grows. -/
structure Roomy (s : Threads Shard TenantPc) : Prop where
  length : s.shared.registry.slots.slots.length ≤ s.shared.peak
  roomy : ∀ pid pc, s.At pid pc → pc.roomy s.shared

/-- A step that leaves the slots alone. -/
theorem Roomy.calm (hs : Roomy s) (hp : s.At pid pc)
    (hslots : sh.registry.slots = s.shared.registry.slots) (hpeak : s.shared.peak ≤ sh.peak)
    (hfinished : ∀ c, s.shared.finished c = true → sh.finished c = true)
    (hself : pc'.roomy sh) : Roomy (s.update pid sh pc' none) := by
  refine ⟨?_, fun qid q hq => ?_⟩
  · rw [Threads.update_shared, hslots]
    exact hs.length.trans hpeak
  · rcases (at_update hp).mp hq with ⟨-, rfl⟩ | ⟨-, hold⟩
    · exact hself
    · exact TenantPc.roomy_mono hslots hpeak hfinished (hs.roomy qid q hold)

/-- A step under the lock. -/
theorem Roomy.locked (hreach : shardMachine.Reachable ok s) (hp : s.At pid pc)
    (hlocks : pc.locking = 1) (hlength : sh.registry.slots.slots.length ≤ sh.peak)
    (hself : pc'.roomy sh) : Roomy (s.update pid sh pc' none) := by
  refine ⟨hlength, fun qid q hq => ?_⟩
  rcases (at_update hp).mp hq with ⟨-, rfl⟩ | ⟨hne, hold⟩
  · exact hself
  · refine TenantPc.roomy_of_unlocked ?_
    by_contra hother
    refine hne (lock_exclusive hreach hp hlocks hold ?_)
    cases q <;> first | rfl | exact absurd rfl hother

theorem Roomy.step (hreach : shardMachine.Reachable ok s) (hs : Roomy s) (hp : s.At pid pc)
    (h : ShardStep pid s.shared pc sh pc') : Roomy (s.update pid sh pc' none) := by
  have hself := hs.roomy pid pc hp
  cases h with
  | count | finish => exact hs.calm hp rfl le_rfl (fun _ h => h) trivial
  | mark =>
    refine hs.calm hp rfl le_rfl (fun c hc => ?_) trivial
    show (c == pid || s.shared.finished c) = true
    rw [hc, Bool.or_true]
  | lockRoom _ hroom => exact hs.calm hp rfl (le_max_left _ _) (fun _ h => h) (.inl hroom)
  | lock _ hfull =>
    refine hs.calm hp rfl (le_max_left _ _) (fun _ h => h) ?_
    by_cases hfinished : ∃ j core, s.shared.registry.slots.get j = some core ∧
        s.shared.finished core = true
    · obtain ⟨j, core, hget, hcore⟩ := hfinished
      exact .inr ⟨j, core, Nat.zero_le j, hget, hcore⟩
    · refine .inl (.inr ?_)
      show s.shared.registry.slots.slots.length + 1 ≤ max s.shared.peak (s.shared.eager.length + 1)
      have hle := (housed hreach).length_slots_le hfull hfinished
      omega
  | @sweep index hindex =>
    have hlength : (s.shared.registry.slots.sweepSlot s.shared.finished index).slots.length ≤
        s.shared.peak := by
      rw [ActiveSlots.length_slots_sweepSlot]
      exact hs.length
    refine .locked hreach hp rfl hlength ?_
    have hfree := ActiveSlots.free_sweepSlot s.shared.finished index s.shared.registry.slots
    rcases hself with (hroom | hroom) | ⟨j, core, hj, hget, hcore⟩
    · refine .inl (.inl ?_)
      show (s.shared.registry.slots.sweepSlot s.shared.finished index).free ≠ []
      rw [hfree]
      split
      · exact List.cons_ne_nil _ _
      · exact hroom
    · refine .inl (.inr ?_)
      show (s.shared.registry.slots.sweepSlot s.shared.finished index).slots.length + 1 ≤ _
      rw [ActiveSlots.length_slots_sweepSlot]
      exact hroom
    · rcases hj.eq_or_lt with rfl | hlt
      · refine .inl (.inl ?_)
        show (s.shared.registry.slots.sweepSlot s.shared.finished index).free ≠ []
        rw [hfree, hget, Option.any_some, hcore, if_pos rfl]
        exact List.cons_ne_nil _ _
      · refine .inr ⟨j, core, hlt, ?_, hcore⟩
        show (s.shared.registry.slots.sweepSlot s.shared.finished index).get j = some core
        rw [ActiveSlots.get_sweepSlot, if_neg hlt.ne']
        exact hget
  | @swept index hindex =>
    refine .locked hreach hp rfl hs.length ?_
    rcases hself with hspare | ⟨j, core, hj, hget, -⟩
    · exact hspare
    · have hlt := (List.getElem?_eq_some_iff.mp (ActiveSlots.get_eq_some.mp hget)).1
      omega
  | store =>
    refine .locked hreach hp rfl ?_ trivial
    show (s.shared.registry.slots.insert pid).1.slots.length ≤ s.shared.peak
    rcases s.shared.registry.slots.insert_eq pid with ⟨slot, free, hfree, heq⟩ | ⟨hfull, heq⟩
    · rw [heq, List.length_set]
      exact hs.length
    · rw [heq, List.length_append, List.length_singleton]
      exact hself.resolve_left fun hroom => hroom hfull

/-- The slot array never grows beyond the largest number of cores that were unfinished at
once. -/
theorem roomy (h : shardMachine.Reachable ok s) : Roomy s := by
  refine shard_induct h (fun hreach hs hp hstep => hs.step hreach hp hstep) (fun hs => ?_) ?_
  · refine ⟨hs.length, fun pid pc hp => ?_⟩
    rcases at_spawn.mp hp with hold | ⟨-, rfl⟩
    · exact hs.roomy pid pc hold
    · exact trivial
  · exact ⟨le_rfl, nofun⟩

end Steps

end FuturesOrchestra
