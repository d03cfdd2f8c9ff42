import FuturesOrchestra.Proofs.Isolation

/-!
# What the active count counts

`active_task_count` of the relaxed pool adds up the counters of the shards one by one, while
tasks start and end. The call is followed through the steps of the pool, with the true number
of tasks in flight at each instant of it.
-/

namespace FuturesOrchestra

open Interleaving

variable {σ R : Type} {cfg : PoolConfig} {pid k : Nat} {sh sh' : Shared σ R}
  {sp : Option (Proc R)} {p p' : Proc R}

/-- The counters of the shards. -/
def Shared.counts (sh : Shared σ R) : List Nat := sh.shards.map (·.inFlight)

/-- How many tasks are in flight. -/
def Shared.inFlightTotal (sh : Shared σ R) : Nat := sh.counts.sum

/-- A call of `active_task_count`: the next shard to be read and the sum so far, and the
history of the call: how often a task was counted in and counted out since it began, and the
true number of tasks in flight at each of its instants. -/
structure CountCall where
  shard : Nat
  active : Nat
  inserts : Nat
  finishes : Nat
  totals : List Nat
deriving DecidableEq, Repr

namespace CountCall

/-- The call begins. -/
def start (sh : Shared σ R) : CountCall := ⟨0, 0, 0, 0, [sh.inFlightTotal]⟩

/-- The pool takes a step during the call. -/
def observe (sh sh' : Shared σ R) (c : CountCall) : CountCall :=
  { c with
    inserts := c.inserts + (sh'.inFlightTotal - sh.inFlightTotal)
    finishes := c.finishes + (sh.inFlightTotal - sh'.inFlightTotal)
    totals := c.totals ++ [sh'.inFlightTotal] }

/-- The load of the next counter, if there is another shard. -/
def read (cfg : PoolConfig) (sh : Shared σ R) (c : CountCall) : Option CountCall :=
  (sh.readLen cfg c.shard).map fun n => { c with shard := c.shard + 1, active := c.active + n }

end CountCall

/-- One call of `active_task_count` among the steps of the pool: an action is a step of the
pool, or, without one, of the call. -/
def countMachine (σ R : Type) [Semaphore σ] (cfg : PoolConfig) (s : Pool σ R) :
    Machine (Pool σ R × CountCall) (Option (PoolEvent R)) where
  init := (s, .start s.shared)
  step
    | (u, c), some e => ((poolMachine σ R cfg).step u e).map fun v => (v, c.observe u.shared v.shared)
    | (u, c), none => (c.read cfg u.shared).map fun c => (u, c)

/-! ## What a step does to the counters -/

/-- A step leaves the counters alone, or it changes one of them by one. -/
inductive CountStep (sh sh' : Shared σ R) : Prop
  | kept (hcounts : sh'.counts = sh.counts)
  | moved {i n n'} (hcount : sh.counts[i]? = some n) (hcounts : sh'.counts = sh.counts.set i n')
      (hup : n' ≤ n + 1) (hdown : n ≤ n' + 1)

theorem CountStep.of_eq (h : sh'.shards = sh.shards) : CountStep sh sh' :=
  .kept (by rw [Shared.counts, Shared.counts, h])

theorem CountStep.of_setShard {i : Nat} {r r' : DeferredRegistry Nat}
    (hshard : sh.shards[i]? = some r) (hset : sh'.shards = sh.shards.set i r')
    (hup : r'.inFlight ≤ r.inFlight + 1) (hdown : r.inFlight ≤ r'.inFlight + 1) :
    CountStep sh sh' := by
  refine .moved (i := i) (n := r.inFlight) ?_ ?_ hup hdown
  · rw [Shared.counts, List.getElem?_map, hshard, Option.map_some]
  · rw [Shared.counts, hset, List.map_set]
    rfl

/-- What the shards from `k` on count. -/
def Shared.unread (k : Nat) (sh : Shared σ R) : Nat := (sh.counts.drop k).sum

theorem Shared.unread_zero (sh : Shared σ R) : sh.unread 0 = sh.inFlightTotal := rfl

/-- The counters from `k` on change as the total does, or not at all; and the total changes by
at most one. -/
theorem CountStep.unread (h : CountStep sh sh') (k : Nat) :
    (sh'.unread k + sh.inFlightTotal = sh.unread k + sh'.inFlightTotal ∨
      sh'.unread k = sh.unread k) ∧
    sh'.inFlightTotal ≤ sh.inFlightTotal + 1 ∧ sh.inFlightTotal ≤ sh'.inFlightTotal + 1 := by
  cases h with
  | kept hcounts =>
    rw [Shared.unread, Shared.unread, Shared.inFlightTotal, Shared.inFlightTotal, hcounts]
    exact ⟨.inr rfl, by omega, by omega⟩
  | @moved i n n' hcount hcounts hup hdown =>
    have hsum : (sh.counts.set i n').sum + n = sh.counts.sum + n' := by
      simpa using Threads.sum_map_set n' id hcount
    have htotal : sh'.inFlightTotal + n = sh.inFlightTotal + n' := by
      rw [Shared.inFlightTotal, hcounts]
      exact hsum
    refine ⟨?_, by omega, by omega⟩
    rw [Shared.unread, Shared.unread, hcounts, List.drop_set]
    split
    · exact .inr rfl
    · next hge =>
      have hindex : (sh.counts.drop k)[i - k]? = some n := by
        rw [List.getElem?_drop, Nat.add_sub_cancel' (Nat.le_of_not_lt hge), hcount]
      have hrest : ((sh.counts.drop k).set (i - k) n').sum + n = (sh.counts.drop k).sum + n' := by
        simpa using Threads.sum_map_set n' id hindex
      refine .inl ?_
      omega

/-! ## The call -/

/-- What holds during a call that began in a state with `total` tasks in flight. -/
structure CountCall.Fair (total width : Nat) (sh : Shared σ R) (c : CountCall) : Prop where
  length : sh.counts.length = width
  balance : total + c.inserts = sh.inFlightTotal + c.finishes
  upper : c.active + sh.unread c.shard ≤ total + c.inserts
  lower : total ≤ c.active + sh.unread c.shard + c.finishes
  between : ∀ m, (total ≤ m ∧ m ≤ sh.inFlightTotal) ∨ (sh.inFlightTotal ≤ m ∧ m ≤ total) →
    m ∈ c.totals
  single : width = 1 → (c.shard = 0 ∧ c.active = 0) ∨ (1 ≤ c.shard ∧ c.active ∈ c.totals)

namespace CountCall.Fair

variable {total width : Nat} {c c' : CountCall}

theorem total_mem (h : c.Fair total width sh) : sh.inFlightTotal ∈ c.totals :=
  h.between _ ((le_total total sh.inFlightTotal).imp (fun hle => ⟨hle, le_rfl⟩)
    fun hle => ⟨le_rfl, hle⟩)

theorem start (sh : Shared σ R) :
    (CountCall.start sh).Fair sh.inFlightTotal sh.counts.length sh := by
  refine ⟨rfl, rfl, ?_, ?_, fun m hm => ?_, fun _ => .inl ⟨rfl, rfl⟩⟩
  · show 0 + sh.unread 0 ≤ sh.inFlightTotal + 0
    rw [Shared.unread_zero, Nat.zero_add, Nat.add_zero]
  · show sh.inFlightTotal ≤ 0 + sh.unread 0 + 0
    rw [Shared.unread_zero, Nat.zero_add, Nat.add_zero]
  · obtain rfl : m = sh.inFlightTotal := by
      rcases hm with ⟨hle, hge⟩ | ⟨hge, hle⟩
      · exact le_antisymm hge hle
      · exact le_antisymm hle hge
    exact List.mem_singleton_self _

theorem observe (h : c.Fair total width sh) (hstep : CountStep sh sh') :
    (c.observe sh sh').Fair total width sh' := by
  obtain ⟨hunread, hup, hdown⟩ := hstep.unread c.shard
  have hbalance := h.balance
  have hupper := h.upper
  have hlower := h.lower
  refine ⟨?_, ?_, ?_, ?_, fun m hm => ?_, fun hone => ?_⟩
  · rw [← h.length]
    cases hstep with
    | kept hcounts => rw [hcounts]
    | moved _ hcounts => rw [hcounts, List.length_set]
  · show total + (c.inserts + (sh'.inFlightTotal - sh.inFlightTotal)) =
      sh'.inFlightTotal + (c.finishes + (sh.inFlightTotal - sh'.inFlightTotal))
    omega
  · show c.active + sh'.unread c.shard ≤ total + (c.inserts + (sh'.inFlightTotal - sh.inFlightTotal))
    omega
  · show total ≤ c.active + sh'.unread c.shard +
      (c.finishes + (sh.inFlightTotal - sh'.inFlightTotal))
    omega
  · -- the total moves by one, so that it passes over nothing
    show m ∈ c.totals ++ [sh'.inFlightTotal]
    rw [List.mem_append, List.mem_singleton]
    by_cases hnew : m = sh'.inFlightTotal
    · exact .inr hnew
    · refine .inl (h.between m ?_)
      omega
  · rcases h.single hone with hbefore | ⟨hpassed, hmem⟩
    · exact .inl hbefore
    · exact .inr ⟨hpassed, List.mem_append_left _ hmem⟩

theorem read (hrlxd : cfg.kind = .rlxd) (h : c.Fair total width sh)
    (hread : c.read cfg sh = some c') : c'.Fair total width sh := by
  obtain ⟨n, hn, rfl⟩ := Option.map_eq_some_iff.mp hread
  have hcount : sh.counts[c.shard]? = some n := by
    rw [Shared.readLen, hrlxd] at hn
    rw [Shared.counts, List.getElem?_map]
    exact hn
  obtain ⟨hlt, hnth⟩ := List.getElem?_eq_some_iff.mp hcount
  have hunread : sh.unread c.shard = n + sh.unread (c.shard + 1) := by
    rw [Shared.unread, List.drop_eq_getElem_cons hlt, List.sum_cons, hnth]
    rfl
  have hupper := h.upper
  have hlower := h.lower
  refine ⟨h.length, h.balance, ?_, ?_, h.between, fun hone => .inr ⟨Nat.le_add_left 1 _, ?_⟩⟩
  · show c.active + n + sh.unread (c.shard + 1) ≤ total + c.inserts
    omega
  · show total ≤ c.active + n + sh.unread (c.shard + 1) + c.finishes
    omega
  · have hlength := h.length
    rcases h.single hone with ⟨hshard, hactive⟩ | ⟨hpassed, -⟩
    · show c.active + n ∈ c.totals
      have hlast : sh.unread 1 = 0 := by
        rw [Shared.unread, List.drop_eq_nil_of_le (by omega)]
        rfl
      rw [hshard, Shared.unread_zero, hlast] at hunread
      rw [hactive, Nat.zero_add, ← hunread.trans (Nat.add_zero n)]
      exact h.total_mem
    · omega

/-- When the call returns. -/
theorem returned (hrlxd : cfg.kind = .rlxd) (h : c.Fair total width sh)
    (hret : c.read cfg sh = none) :
    (c.inserts = 0 ∨ c.finishes = 0 ∨ width = 1 → c.active ∈ c.totals) ∧
      c.active ≤ total + c.inserts ∧ total ≤ c.active + c.finishes := by
  have hend : sh.counts.length ≤ c.shard := by
    rw [CountCall.read, Option.map_eq_none_iff, Shared.readLen, hrlxd] at hret
    rw [Shared.counts, List.length_map]
    simpa using hret
  have hunread : sh.unread c.shard = 0 := by
    rw [Shared.unread, List.drop_eq_nil_of_le hend]
    rfl
  have hbalance := h.balance
  have hupper := h.upper
  have hlower := h.lower
  rw [hunread, Nat.add_zero] at hupper hlower
  refine ⟨?_, hupper, hlower⟩
  rintro (hinserts | hfinishes | hone)
  · exact h.between _ (.inr ⟨by omega, by omega⟩)
  · exact h.between _ (.inl ⟨by omega, by omega⟩)
  · rcases h.single hone with ⟨hshard, -⟩ | ⟨-, hmem⟩
    · have hlength := h.length
      omega
    · exact hmem

end CountCall.Fair

/-! ## Every run -/

variable [Semaphore σ]

theorem Proc.Step.counts (h : Proc.Step cfg pid sh p sh' p' sp) : CountStep sh sh' := by
  cases h with
  | submit hstep =>
    cases hstep with
    | insertCount _ _ hshard =>
      exact .of_setShard hshard rfl le_rfl ((Nat.le_succ _).trans (Nat.le_succ _))
    | insert _ _ hshard => exact .of_setShard hshard rfl (Nat.le_succ _) (Nat.le_succ _)
    | _ => exact .of_eq rfl
  | loop hstep =>
    cases hstep with
    | insertCount _ _ hshard =>
      exact .of_setShard hshard rfl le_rfl ((Nat.le_succ _).trans (Nat.le_succ _))
    | insertRlxd _ _ hshard => exact .of_setShard hshard rfl (Nat.le_succ _) (Nat.le_succ _)
    | _ => exact .of_eq rfl
  | wrapper hstep =>
    cases hstep with
    | countOut _ _ hshard =>
      exact .of_setShard hshard rfl ((Nat.sub_le _ _).trans (Nat.le_succ _))
        (Nat.sub_le_iff_le_add.mp le_rfl)
    | _ => exact .of_eq rfl
  | bystander _ _ hstep => exact .of_eq hstep.1.shards

/-- Every step of the pool changes at most one counter, by one. -/
theorem count_step {s s' : Pool σ R} {e : PoolEvent R}
    (h : (poolMachine σ R cfg).step s e = some s') : CountStep s.shared s'.shared := by
  cases e with
  | run b pid =>
    obtain ⟨p, sh, p', sp, hp, hrun, rfl⟩ := Program.step_run h
    exact (Proc.step_of_run hrun).counts
  | call c =>
    obtain ⟨sh, sp, hcall, rfl⟩ := Program.step_call h
    exact .of_eq (Call.enter_quiet hcall).1.shards

section Runs

variable {s u : Pool σ R} {c : CountCall}

theorem fair (hrlxd : cfg.kind = .rlxd)
    (h : (countMachine σ R cfg s).Reachable Machine.anyStep (u, c)) :
    c.Fair s.shared.inFlightTotal s.shared.counts.length u.shared := by
  refine h.invariant (I := fun x => CountCall.Fair s.shared.inFlightTotal s.shared.counts.length
    x.1.shared x.2) ?_ (.start s.shared)
  rintro ⟨u, c⟩ e ⟨v, c'⟩ hfair - hstep
  cases e with
  | some e =>
    obtain ⟨w, hw, heq⟩ := Option.map_eq_some_iff.mp hstep
    obtain ⟨rfl, rfl⟩ := Prod.mk.inj heq
    exact hfair.observe (count_step hw)
  | none =>
    obtain ⟨w, hw, heq⟩ := Option.map_eq_some_iff.mp hstep
    obtain ⟨rfl, rfl⟩ := Prod.mk.inj heq
    exact hfair.read hrlxd hw

end Runs

/-- What `active_task_count` of the relaxed pool returns. It is the true number of tasks in
flight at some instant of the call when the pool has one shard, or no task is counted in
during the call, or none is counted out. In any case it is at most the number at the start and
the tasks counted in since then, and at least the number at the start less the tasks counted
out; so it exceeds the concurrency limit by no more than the tasks counted in during the call,
while every wrapper runs to its end. -/
theorem active_count_between (σ R : Type) [Semaphore σ]
    (concurrencyLimit queueCapacity dispatchers : Nat) (poolName : String) (s u : Pool σ R)
    (c : CountCall)
    (h : (poolMachine σ R (.rlxd concurrencyLimit queueCapacity dispatchers poolName)).Reachable
      Machine.anyStep s)
    (hcall : (countMachine σ R (.rlxd concurrencyLimit queueCapacity dispatchers poolName)
      s).Reachable Machine.anyStep (u, c))
    (hret : c.read (.rlxd concurrencyLimit queueCapacity dispatchers poolName) u.shared = none) :
    (c.inserts = 0 ∨ c.finishes = 0 ∨ s.shared.shards.length = 1 → c.active ∈ c.totals) ∧
      c.active ≤ s.shared.inFlightTotal + c.inserts ∧
      s.shared.inFlightTotal ≤ c.active + c.finishes ∧
      ((∀ p ∈ s.procs, p.unwound = false) →
        c.active ≤ max concurrencyLimit 1 + c.inserts) := by
  have hfair := fair rfl hcall
  rw [Shared.counts, List.length_map] at hfair
  obtain ⟨hexact, hupper, hlower⟩ := hfair.returned rfl hret
  refine ⟨hexact, hupper, hlower, fun hends => hupper.trans (Nat.add_le_add_right ?_ _)⟩
  have hconserved := permits_conserved h
  have hle := sum_inFlight_le rfl h hends
  simp only [PoolConfig.rlxd] at hconserved
  show (s.shared.shards.map (·.inFlight)).sum ≤ max concurrencyLimit 1
  omega

/-- Two shards. Task 0 runs in shard 0 and task 1 in shard 1 after it; the call of the counter
begins when task 0 has ended. -/
def countedFrom : Pool FairSemaphore Nat :=
  let M := poolMachine FairSemaphore Nat (.rlxd 2 1 2 "pool")
  M.after (fun _ _ => true)
    (.call (.submit 0 ∅ (.ready 1)) :: stepping (List.replicate 12 2) ++
      .call (.submit 0 ∅ (.ready 1)) :: stepping (List.replicate 12 4) ++
      stepping (List.replicate 7 3)) M.init

/-- The call reads shard 0, then task 2 starts in shard 0 and task 1 ends, and the call reads
shard 1. -/
def countedZero : Pool FairSemaphore Nat × CountCall :=
  let M := countMachine FairSemaphore Nat (.rlxd 2 1 2 "pool") countedFrom
  M.after (fun _ _ => true)
    (none :: List.map some (.call (.submit 0 ∅ .never) :: stepping (List.replicate 12 6) ++
      stepping (List.replicate 7 5)) ++ [none]) M.init

/-- The call reads shard 0, then task 1 ends, and the call reads shard 1. -/
def countedEnding : Pool FairSemaphore Nat × CountCall :=
  let M := countMachine FairSemaphore Nat (.rlxd 2 1 2 "pool") countedFrom
  M.after (fun _ _ => true) (none :: List.map some (stepping (List.replicate 7 5)) ++ [none]) M.init

theorem active_count_between_zero :
    countedZero.2.inserts = 1 ∧ countedZero.2.active ≤ 1 + countedZero.2.inserts ∧
      countedFrom.shared.inFlightTotal ≤ countedZero.2.active + countedZero.2.finishes ∧
      countedZero.2.active ≤ 2 + countedZero.2.inserts ∧
      countedEnding.2.finishes = 1 ∧ countedEnding.2.active ∈ countedEnding.2.totals := by
  have hreach : (poolMachine FairSemaphore Nat (.rlxd 2 1 2 "pool")).Reachable Machine.anyStep
      countedFrom := (Machine.steps_after _ _ _ _).any
  have hcall : (countMachine FairSemaphore Nat (.rlxd 2 1 2 "pool") countedFrom).Reachable
      Machine.anyStep countedZero := (Machine.steps_after _ _ _ _).any
  have hcall' : (countMachine FairSemaphore Nat (.rlxd 2 1 2 "pool") countedFrom).Reachable
      Machine.anyStep countedEnding := (Machine.steps_after _ _ _ _).any
  have hlaw := active_count_between FairSemaphore Nat 2 1 2 "pool" countedFrom countedZero.1
    countedZero.2 hreach hcall (by decide)
  have hends : countedFrom.procs.all (!·.unwound) = true := by decide
  have hlimit := hlaw.2.2.2 fun p hp => by simpa using List.all_eq_true.mp hends p hp
  have hexact := active_count_between FairSemaphore Nat 2 1 2 "pool" countedFrom countedEnding.1
    countedEnding.2 hreach hcall' (by decide)
  exact ⟨by decide, hlaw.2.1, hlaw.2.2.1, hlimit, by decide, hexact.1 (.inl (by decide))⟩

/-- The call returns 0, and at each of its instants a task is in flight. -/
theorem count_misses_running_task :
    (poolMachine FairSemaphore Nat (.rlxd 2 1 2 "pool")).Reachable Machine.anyStep countedFrom ∧
      (countMachine FairSemaphore Nat (.rlxd 2 1 2 "pool") countedFrom).Reachable Machine.anyStep
        countedZero ∧
      countedZero.2.read (.rlxd 2 1 2 "pool") countedZero.1.shared = none ∧
      countedZero.2.active = 0 ∧ ∀ total ∈ countedZero.2.totals, 1 ≤ total :=
  ⟨(Machine.steps_after _ _ _ _).any, (Machine.steps_after _ _ _ _).any, by decide, by decide,
    by decide⟩

end FuturesOrchestra
