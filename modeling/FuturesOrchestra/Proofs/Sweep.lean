import FuturesOrchestra.Proofs.Permits
import FuturesOrchestra.Proofs.Registry

/-!
# The sweep of a forceful shutdown

A forceful `shutdown` that finds the token not cancelled takes a snapshot of the
registry, shard by shard, and cancels every task in it. A task that was in the
registry when its shard was read is either in the snapshot or has left the registry
when the call returns. A call that finds the token cancelled takes no snapshot.
-/

namespace FuturesOrchestra

open Interleaving

variable {σ R : Type} {cfg : PoolConfig} {pid t i j : Nat} {sh sh' : Shared σ R}
  {sp : Option (Proc R)}

/-- The strict registry is read at once, as shard 0. -/
def shardOf (cfg : PoolConfig) (i : Nat) : Nat :=
  match cfg.kind with
  | .strict => 0
  | .rlxd => i

/-- Task `t` was started and is in the registry, at slot or shard `i`. -/
def Started (s : Pool σ R) (t i : Nat) : Prop :=
  ∃ pid p, s.At pid p ∧ p.registered = some (t, i)

/-- The wrapper of task `t` has left the registry. -/
def Over (s : Pool σ R) (t : Nat) : Prop :=
  ∃ pid w, s.At pid (.wrapper w) ∧ w.task = t ∧ w.pc.left = true

/-- The sweep of the call has not read shard `j` yet. -/
def ShutdownPc.unswept (j : Nat) : ShutdownPc → Bool
  | .readToken | .cancel | .close => true
  | .sweep shard _ => shard ≤ j
  | _ => false

/-- The call will cancel task `t` of shard `j`, unless it finds the shutdown
already in progress. -/
def ShutdownCall.willCancel (t j : Nat) (c : ShutdownCall) : Prop :=
  match c.pc with
  | .readToken | .cancel | .close => True
  | .sweep shard tokens => shard ≤ j ∨ t ∈ tokens
  | .cancelAll tokens => t ∈ tokens
  | _ => c.already = true

theorem ShutdownCall.willCancel_of_unswept {c : ShutdownCall} (h : c.pc.unswept j = true) :
    c.willCancel t j := by
  unfold willCancel
  cases hpc : c.pc <;> simp_all [ShutdownPc.unswept]

theorem Shared.readTokens_none_of_le {k : Nat} (hk : sh.readTokens cfg k = none) (hkj : k ≤ j) :
    sh.readTokens cfg j = none := by
  unfold readTokens at hk ⊢
  cases hkind : cfg.kind with
  | strict =>
    have hk0 : k ≠ 0 := by
      rintro rfl
      simp [hkind] at hk
    simp [show j ≠ 0 by omega]
  | rlxd =>
    simp only [hkind, Option.map_eq_none_iff, List.getElem?_eq_none_iff] at hk ⊢
    exact hk.trans hkj

theorem ShutdownStep.mode_kept {b : Signal} {c c' : ShutdownCall}
    (h : ShutdownStep cfg b sh c sh' c') : c'.mode = c.mode := by
  cases h <;> rfl

/-- A step of the call keeps the task among those it will cancel, or cancels it. -/
theorem ShutdownStep.willCancel {b : Signal} {c c' : ShutdownCall} {found : List Nat}
    (h : ShutdownStep cfg b sh c sh' c') (hmode : c.mode = .forcefulCancel)
    (hread : sh.readTokens cfg j = some found) (ht : t ∈ found) (hc : c.willCancel t j) :
    c'.willCancel t j ∨ sh'.isCancelled t = true := by
  cases h with
  | initiate | cancel => exact .inl True.intro
  | join => exact .inl rfl
  | closeGraceful _ hgraceful =>
    rw [hmode] at hgraceful
    cases hgraceful
  | closeForceful => exact .inl (.inl (Nat.zero_le j))
  | @sweep shard tokens found' hpc hread' =>
    simp only [ShutdownCall.willCancel, hpc] at hc
    simp only [ShutdownCall.willCancel, ShutdownCall.goto_pc, List.mem_append]
    rcases hc with hle | hmem
    · rcases Nat.lt_or_eq_of_le hle with hlt | rfl
      · exact .inl (.inl hlt)
      · obtain rfl := Option.some.inj (hread'.symm.trans hread)
        exact .inl (.inr (.inr ht))
    · exact .inl (.inr (.inl hmem))
  | @sweepEnd shard tokens hpc hnone =>
    simp only [ShutdownCall.willCancel, hpc] at hc
    rcases hc with hle | hmem
    · rw [Shared.readTokens_none_of_le hnone hle] at hread
      cases hread
    · exact .inl hmem
  | @cancelTask u tokens hpc =>
    simp only [ShutdownCall.willCancel, hpc, List.mem_cons] at hc
    rcases hc with rfl | hmem
    · exact .inr (by simp [Shared.isCancelled])
    · exact .inl hmem
  | cancelEnd hpc => simp [ShutdownCall.willCancel, hpc] at hc
  | abandon _ hpc =>
    rcases hpc with hpc | ⟨_, _, hpc⟩ | hpc
    all_goals
      simp only [ShutdownCall.willCancel, hpc] at hc
      exact .inl hc
  | _ => simp_all [ShutdownCall.willCancel]

variable [Semaphore σ]

/-- A task leaves the registry only with its wrapper, and stays where it was put. -/
theorem Proc.Step.registered_kept {p p' : Proc R} (h : Proc.Step cfg pid sh p sh' p' sp)
    (hp : p.registered = some (t, i)) :
    p'.registered = some (t, i) ∨ (∃ q, sp = some q ∧ q.registered = some (t, i)) ∨
      ∃ w, p' = .wrapper w ∧ w.task = t ∧ w.pc.left = true := by
  cases h with
  | @submit c _ _ _ hstep =>
    have hc : c.pc.registered = some (t, i) := hp
    cases hstep with
    | lookup hkind hpc => exact .inl (by simpa [registered, SubmitPc.registered, hpc] using hc)
    | spawn hkind hpc =>
      refine .inr (.inl ⟨_, rfl, ?_⟩)
      simpa [registered, SubmitPc.registered, WrapperPc.left, hpc] using hc
    | refuse hpc | reject hpc | abandon hpc =>
      rcases hpc with hpc | hpc <;> simp [SubmitPc.registered, hpc] at hc
    | _ => simp [SubmitPc.registered, *] at hc
  | @loop d _ _ _ hstep =>
    have hd : d.pc.registered = some (t, i) := hp
    cases hstep with
    | lookup hpc => exact .inl (by simpa [registered, LoopPc.registered, hpc] using hd)
    | spawn hpc =>
      refine .inr (.inl ⟨_, rfl, ?_⟩)
      simpa [registered, LoopPc.registered, WrapperPc.left, hpc] using hd
    | _ => simp [LoopPc.registered, *] at hd
  | @wrapper w _ w' hstep =>
    have htask : w.task = t := Option.some.inj (carries_of_registered hp)
    cases hleft : w'.pc.left with
    | true => exact .inr (.inr ⟨w', rfl, hstep.task_kept.trans htask, hleft⟩)
    | false =>
      refine .inl ?_
      simp only [registered] at hp ⊢
      split at hp
      · cases hp
      · simpa [hleft, hstep.task_kept, hstep.slot_kept] using hp
  | bystander hby =>
    cases p with
    | submit | loop | wrapper => exact hby.elim
    | _ => cases hp

section Runs

variable {s s' : Pool σ R} {ok : Pool σ R → PoolEvent R → Prop} {p p' : Proc R}

/-- A registered task is found by a read of its shard. -/
theorem Registry.read (hreach : (poolMachine σ R cfg).Reachable ok s) (hs : Registry cfg s)
    (hp : s.At pid p) (hreg : p.registered = some (t, i)) :
    ∃ found, s.shared.readTokens cfg (shardOf cfg i) = some found ∧ t ∈ found := by
  have hholds := hs.listed pid p t i hp hreg
  have hunfinished := hs.unfinished hreach hp hreg
  unfold Shared.holds at hholds
  unfold Shared.readTokens shardOf
  cases hkind : cfg.kind with
  | strict =>
    simp only [hkind] at hholds ⊢
    exact ⟨_, rfl, ActiveSlots.mem_allTokens.mpr ⟨i, hholds⟩⟩
  | rlxd =>
    simp only [hkind] at hholds ⊢
    obtain ⟨a, k, hslots, hget⟩ := hholds
    obtain ⟨r, hr, rfl⟩ := Option.map_eq_some_iff.mp hslots
    refine ⟨_, by rw [hr]; rfl, ?_⟩
    simpa [DeferredRegistry.allTokens, hunfinished] using ActiveSlots.mem_allTokens.mpr ⟨k, hget⟩

theorem Started.update (hp : s.At pid p) (hstep : Proc.Step cfg pid s.shared p sh p' sp)
    (hs : Started s t i) : Started (s.update pid sh p' sp) t i ∨ Over (s.update pid sh p' sp) t := by
  obtain ⟨qid, q, hq, hreg⟩ := hs
  by_cases hne : qid = pid
  · subst hne
    obtain rfl := Option.some.inj (hp.symm.trans hq)
    rcases hstep.registered_kept hreg with hkept | ⟨r, rfl, hr⟩ | ⟨w, rfl, htask, hleft⟩
    · exact .inl ⟨qid, p', Threads.update_self hp, hkept⟩
    · exact .inl ⟨s.procs.length, r, Threads.update_new r, hr⟩
    · exact .inr ⟨qid, w, Threads.update_self hp, htask, hleft⟩
  · exact .inl ⟨qid, q, Threads.update_other hne hq, hreg⟩

theorem Over.update (hp : s.At pid p) (hstep : Proc.Step cfg pid s.shared p sh p' sp)
    (hs : Over s t) : Over (s.update pid sh p' sp) t :=
  hstep.left_stays hp hs

/-- A task that is started and to be cancelled stays so, until it is cancelled or over. -/
theorem Started.or_update {will : Prop} (hcreated : t < s.shared.nextTaskId) (hp : s.At pid p)
    (hstep : Proc.Step cfg pid s.shared p sh p' sp)
    (h : s.shared.isCancelled t = true ∨ Over s t ∨ Started s t i ∧ will) :
    (s.update pid sh p' sp).shared.isCancelled t = true ∨ Over (s.update pid sh p' sp) t ∨
      Started (s.update pid sh p' sp) t i ∧ Started s t i ∧ will := by
  rcases h with hflag | hover | ⟨hstarted, hwill⟩
  · exact .inl (((Shared.Evolves.proc hstep).tasks t hcreated).cancelled hflag)
  · exact .inr (.inl (hover.update hp hstep))
  · rcases hstarted.update hp hstep with hstarted' | hover
    · exact .inr (.inr ⟨hstarted', hstarted, hwill⟩)
    · exact .inr (.inl hover)

omit [Semaphore σ] in
theorem Started.or_spawn {will : Prop} (hquiet : s.shared.Quiet sh)
    (h : s.shared.isCancelled t = true ∨ Over s t ∨ Started s t i ∧ will) :
    (s.spawn sh sp).shared.isCancelled t = true ∨ Over (s.spawn sh sp) t ∨
      Started (s.spawn sh sp) t i ∧ will := by
  rcases h with hflag | ⟨qid, w, hw, hover⟩ | ⟨⟨qid, q, hq, hreg⟩, hwill⟩
  · exact .inl ((Task.Evolves.touched (hquiet.tasks t)).cancelled hflag)
  · exact .inr (.inl ⟨qid, w, Threads.spawn_other hw, hover⟩)
  · exact .inr (.inr ⟨⟨qid, q, Threads.spawn_other hq, hreg⟩, hwill⟩)

/-- What the call owes a task that was in the registry before its sweep. -/
structure Swept (cfg : PoolConfig) (pid t i : Nat) (s : Pool σ R) : Prop where
  created : t < s.shared.nextTaskId
  call : ∃ c, s.At pid (.shutdown c) ∧ c.mode = .forcefulCancel ∧
    (s.shared.isCancelled t = true ∨ Over s t ∨
      Started s t i ∧ c.willCancel t (shardOf cfg i))

theorem Swept.update {b : Signal} {qid : Nat} (hreach : (poolMachine σ R cfg).Reachable ok s)
    (hs : Swept cfg pid t i s) (hp : s.At qid p)
    (hrun : Proc.run cfg b qid s.shared p = some (sh, p', sp)) :
    Swept cfg pid t i (s.update qid sh p' sp) := by
  have hstep := Proc.step_of_run hrun
  have hevolves := Shared.Evolves.proc hstep
  obtain ⟨c, hc, hmode, hcase⟩ := hs.call
  refine ⟨hs.created.trans_le hevolves.nextTaskId, ?_⟩
  -- what does not depend on the call
  have hkept := Started.or_update hs.created hp hstep hcase
  by_cases hne : pid = qid
  · subst hne
    obtain rfl := Option.some.inj (hp.symm.trans hc)
    cases Proc.callStep_of_run (p := .shutdown c) True.intro hrun with
    | @shutdown _ _ c' hcstep =>
      refine ⟨c', Threads.update_self hp, hcstep.mode_kept.trans hmode, ?_⟩
      rcases hkept with hflag | hover | ⟨hstarted', ⟨rid, r, hr, hreg⟩, hwill⟩
      · exact .inl hflag
      · exact .inr (.inl hover)
      · obtain ⟨found, hread, ht⟩ := (registry hreach).read hreach hr hreg
        rcases hcstep.willCancel hmode hread ht hwill with hwill' | hflag
        · exact .inr (.inr ⟨hstarted', hwill'⟩)
        · exact .inl hflag
  · refine ⟨c, Threads.update_other hne hc, hmode, ?_⟩
    rcases hkept with hflag | hover | ⟨hstarted', -, hwill⟩
    · exact .inl hflag
    · exact .inr (.inl hover)
    · exact .inr (.inr ⟨hstarted', hwill⟩)

omit [Semaphore σ] in
theorem Swept.spawn (hs : Swept cfg pid t i s) (hquiet : s.shared.Quiet sh) :
    Swept cfg pid t i (s.spawn sh sp) := by
  obtain ⟨c, hc, hmode, hcase⟩ := hs.call
  exact ⟨hquiet.nextTaskId ▸ hs.created, c, Threads.spawn_other hc, hmode,
    Started.or_spawn hquiet hcase⟩

theorem Swept.steps (hreach : (poolMachine σ R cfg).Reachable Machine.anyStep s)
    (h : (poolMachine σ R cfg).Steps ok s s') (hs : Swept cfg pid t i s) :
    Swept cfg pid t i s' :=
  Pool.invariant hreach (fun hr hi _ hp hrun => hi.update hr hp hrun)
    (fun _ hi _ hcall => hi.spawn (Call.enter_quiet hcall).1) h hs

end Runs

/-- A forceful shutdown cancels what it sweeps. When a call that has initiated the
shutdown returns, every task that was in the registry before the sweep read its
shard has its cancel flag set, or its wrapper has left the registry. -/
theorem forceful_shutdown_cancels_swept (σ R : Type) [Semaphore σ] (cfg : PoolConfig)
    (pid t i : Nat) (c c' : ShutdownCall) (s s' : Pool σ R)
    (h : (poolMachine σ R cfg).Reachable Machine.anyStep s)
    (hc : s.At pid (.shutdown c)) (hmode : c.mode = .forcefulCancel)
    (hunswept : c.pc.unswept (shardOf cfg i) = true) (hstarted : Started s t i)
    (hsteps : (poolMachine σ R cfg).Steps Machine.anyStep s s')
    (hc' : s'.At pid (.shutdown c')) (hpc : c'.pc = .returned) (hfirst : c'.already = false) :
    s'.shared.isCancelled t = true ∨ Over s' t := by
  obtain ⟨qid, q, hq, hreg⟩ := hstarted
  have hcreated := lt_of_carries h hq (Proc.carries_of_registered hreg)
  have hswept : Swept cfg pid t i s :=
    ⟨hcreated, c, hc, hmode, .inr (.inr ⟨⟨qid, q, hq, hreg⟩,
      ShutdownCall.willCancel_of_unswept hunswept⟩)⟩
  obtain ⟨c₁, hc₁, -, hcase⟩ := (hswept.steps h hsteps).call
  obtain rfl := Proc.shutdown.inj (Option.some.inj (hc₁.symm.trans hc'))
  rcases hcase with hflag | hover | ⟨-, hwill⟩
  · exact .inl hflag
  · exact .inr hover
  · simp [ShutdownCall.willCancel, hpc, hfirst] at hwill

/-- A task runs when a forceful shutdown begins. -/
def runningAtForceful : Pool FairSemaphore Nat :=
  let M := poolMachine FairSemaphore Nat (.manager 1 1 "pool")
  M.after (fun _ _ => true)
    (.call (.submit 0 ∅ .never) :: stepping [1, 1, 1, 1, 1, 1, 1, 1] ++
      stepping [0, 0, 0, 0, 0, 0, 0, 0, 0] ++ stepping [2] ++
      .call (.shutdown 0 .forcefulCancel) :: stepping [3]) M.init

/-- The call has cancelled it, waited for it and returned. -/
def forcefulReturned : Pool FairSemaphore Nat :=
  (poolMachine FairSemaphore Nat (.manager 1 1 "pool")).after (fun _ _ => true)
    (stepping [3, 3, 3, 3, 3, 3, 3, 3, 3] ++ stepping [2, 2, 2, 2, 2] ++ stepping [3, 3] ++
      stepping [0, 0, 0] ++ stepping [3, 3, 3, 3, 3, 3, 3, 3, 3]) runningAtForceful

theorem forceful_shutdown_cancels_swept_running :
    (forcefulReturned.shared.tasks 0).sender = .used (.error .taskCancelled) ∧
      (forcefulReturned.shared.isCancelled 0 = true ∨ Over forcefulReturned 0) :=
  ⟨rfl, forceful_shutdown_cancels_swept FairSemaphore Nat (.manager 1 1 "pool") 3 0 0
    ⟨0, .forcefulCancel, false, false, none, .cancel⟩
    ⟨0, .forcefulCancel, false, true, none, .returned⟩ runningAtForceful forcefulReturned
    (Machine.steps_after _ _ _ _).any rfl rfl rfl ⟨2, _, rfl, rfl⟩
    (Machine.steps_after _ _ _ _).any rfl rfl rfl⟩

/-- A graceful shutdown waits for a running task when a forceful one begins on
another handle. -/
def forcefulAfterGraceful : Pool FairSemaphore Nat :=
  let M := poolMachine FairSemaphore Nat (.manager 1 1 "pool")
  M.after (fun _ _ => true)
    (.call (.submit 0 ∅ .never) :: stepping [1, 1, 1, 1, 1, 1, 1, 1] ++
      stepping [0, 0, 0, 0, 0, 0, 0, 0, 0, 0] ++ .call (.clone 0) ::
      .call (.shutdown 0 .graceful) :: stepping [3, 3, 3, 3, 3] ++
      .call (.shutdown 1 .forcefulCancel) :: stepping [4, 4, 4] ++ .run .timeout 4 ::
      stepping [4] ++ stepping [0, 0, 0, 0] ++ stepping [4, 4, 4, 4, 4, 4]) M.init

/-- The forceful call has taken no sweep: it returns, at its timeout, while the
task runs uncancelled. -/
theorem second_forceful_shutdown_cancels_nothing :
    (poolMachine FairSemaphore Nat (.manager 1 1 "pool")).Reachable Machine.anyStep
        forcefulAfterGraceful ∧
      forcefulAfterGraceful.procs[4]? =
        some (.shutdown ⟨1, .forcefulCancel, true, true, none, .returned⟩) ∧
      forcefulAfterGraceful.tally Proc.running = 1 ∧
      forcefulAfterGraceful.shared.active.allTokens = [0] ∧
      forcefulAfterGraceful.shared.isCancelled 0 = false :=
  ⟨(Machine.steps_after _ _ _ _).any, rfl, by decide, by decide, by decide⟩

end FuturesOrchestra
