import FuturesOrchestra.Proofs.Requests
import FuturesOrchestra.Proofs.Sweep

/-!
# Cancellation by label

`cancel_tasks_by_labels` reads the registry shard by shard and raises the flags of the matching
tasks afterwards, while tasks come and go. It misses no matching task that stays in the
registry, and it flags none that does not match or was never there.
-/

namespace FuturesOrchestra

open Interleaving

variable {σ R : Type} {cfg : PoolConfig} {pid t i j : Nat} {sh sh' : Shared σ R}
  {sp : Option (Proc R)} {p p' : Proc R}

/-! ## What the call is going to cancel -/

/-- The tasks that the call has found. -/
def LabelCancelPc.tokens : LabelCancelPc → List Nat
  | .sweep _ tokens | .cancelAll tokens => tokens
  | _ => []

/-- The call will cancel the matching task `t` of shard `j`. -/
def LabelCancelCall.willCancel (t j : Nat) (c : LabelCancelCall) : Prop :=
  match c.pc with
  | .start => True
  | .sweep shard tokens => shard ≤ j ∨ t ∈ tokens
  | .cancelAll tokens => t ∈ tokens
  | .returned => False

theorem LabelCancelStep.labels_kept {c c' : LabelCancelCall} (h : LabelCancelStep cfg sh c sh' c') :
    c'.labels = c.labels := by
  cases h <;> rfl

/-- A step of the call keeps the task among those it will cancel, or cancels it. -/
theorem LabelCancelStep.willCancel {c c' : LabelCancelCall} {found : List Nat}
    (h : LabelCancelStep cfg sh c sh' c')
    (hmatch : ¬Disjoint (sh.tasks t).core.labels c.labels)
    (hread : sh.readTokens cfg j = some found) (ht : t ∈ found) (hc : c.willCancel t j) :
    c'.willCancel t j ∨ sh'.isCancelled t = true := by
  cases h with
  | refuse hpc hlabels =>
    rw [hlabels] at hmatch
    exact absurd (Finset.disjoint_empty_right _) hmatch
  | start => exact .inl (.inl (Nat.zero_le j))
  | @sweep shard tokens found' hpc hread' =>
    rw [LabelCancelCall.willCancel, hpc] at hc
    refine .inl ?_
    show shard + 1 ≤ j ∨ t ∈ tokens ++ _
    rw [List.mem_append]
    rcases hc with hle | hmem
    · rcases Nat.lt_or_eq_of_le hle with hlt | rfl
      · exact .inl hlt
      · obtain rfl := Option.some.inj (hread'.symm.trans hread)
        exact .inr (.inr (List.mem_filter.mpr ⟨ht, decide_eq_true hmatch⟩))
    · exact .inr (.inl hmem)
  | @sweepEnd shard tokens hpc hnone =>
    rw [LabelCancelCall.willCancel, hpc] at hc
    rcases hc with hle | hmem
    · rw [Shared.readTokens_none_of_le hnone hle] at hread
      cases hread
    · exact .inl hmem
  | @cancelTask u tokens hpc =>
    rw [LabelCancelCall.willCancel, hpc] at hc
    rcases List.mem_cons.mp hc with rfl | hmem
    · exact .inr (by simp [Shared.isCancelled])
    · exact .inl hmem
  | cancelEnd hpc =>
    rw [LabelCancelCall.willCancel, hpc] at hc
    cases hc

/-- The tokens of the call after a step were there before, or were just read. -/
theorem LabelCancelStep.tokens {c c' : LabelCancelCall} (h : LabelCancelStep cfg sh c sh' c')
    (ht : t ∈ c'.pc.tokens) : t ∈ c.pc.tokens ∨ ∃ shard found,
      sh.readTokens cfg shard = some found ∧ t ∈ found ∧
        ¬Disjoint (sh.tasks t).core.labels c.labels := by
  cases h with
  | @sweep shard tokens found hpc hread =>
    rcases List.mem_append.mp ht with hold | hnew
    · rw [hpc]
      exact .inl hold
    · obtain ⟨hmem, hmatch⟩ := List.mem_filter.mp hnew
      exact .inr ⟨shard, found, hread, hmem, of_decide_eq_true hmatch⟩
  | sweepEnd hpc =>
    rw [hpc]
    exact .inl ht
  | cancelTask hpc =>
    rw [hpc]
    exact .inl (List.mem_cons_of_mem _ ht)
  | _ => cases ht

/-- A step of a label cancellation requests the cancellation of what the call has found. -/
theorem LabelCancelStep.mem_tokens {c c' : LabelCancelCall} (h : LabelCancelStep cfg sh c sh' c')
    (ht : sh'.isCancelled t = true) : sh.isCancelled t = true ∨ t ∈ c.pc.tokens := by
  cases h with
  | @cancelTask u tokens hpc =>
    rw [hpc]
    rcases Shared.isCancelled_cancel ht with hold | heq
    · exact .inl hold
    · rw [eq_of_beq heq]
      exact .inr List.mem_cons_self
  | _ => exact .inl ht

variable [Semaphore σ]

section Runs

variable {s s' : Pool σ R} {ok : Pool σ R → PoolEvent R → Prop}

/-! ## No matching task is missed -/

/-- What the call with labels `labels` owes a matching task that was in the registry when it
began. -/
structure Owed (cfg : PoolConfig) (pid t i : Nat) (labels : Finset TaskLabel) (s : Pool σ R) :
    Prop where
  created : t < s.shared.nextTaskId
  labelled : ¬Disjoint (s.shared.tasks t).core.labels labels
  call : ∃ c, s.At pid (.labelCancel c) ∧ c.labels = labels ∧
    (s.shared.isCancelled t = true ∨ Over s t ∨
      Started s t i ∧ c.willCancel t (shardOf cfg i))

theorem Owed.update {b : Signal} {qid : Nat} {labels : Finset TaskLabel}
    (hreach : (poolMachine σ R cfg).Reachable ok s) (hs : Owed cfg pid t i labels s)
    (hp : s.At qid p) (hrun : Proc.run cfg b qid s.shared p = some (sh, p', sp)) :
    Owed cfg pid t i labels (s.update qid sh p' sp) := by
  have hstep := Proc.step_of_run hrun
  have hevolves := Shared.Evolves.proc hstep
  have htask := hevolves.tasks t hs.created
  obtain ⟨c, hc, hlabels, hcase⟩ := hs.call
  refine ⟨hs.created.trans_le hevolves.nextTaskId, ?_, ?_⟩
  · rw [Threads.update_shared, htask.labels]
    exact hs.labelled
  -- what does not depend on the call
  have hkept := Started.or_update hs.created hp hstep hcase
  by_cases hne : pid = qid
  · subst hne
    obtain rfl := Option.some.inj (hp.symm.trans hc)
    cases Proc.callStep_of_run (p := .labelCancel c) True.intro hrun with
    | @labelCancel _ _ c' hcstep =>
      refine ⟨c', Threads.update_self hp, hcstep.labels_kept.trans hlabels, ?_⟩
      rcases hkept with hflag | hover | ⟨hstarted', ⟨rid, r, hr, hreg⟩, hwill⟩
      · exact .inl hflag
      · exact .inr (.inl hover)
      · obtain ⟨found, hread, ht⟩ := (registry hreach).read hreach hr hreg
        rcases hcstep.willCancel (hlabels ▸ hs.labelled) hread ht hwill with hwill' | hflag
        · exact .inr (.inr ⟨hstarted', hwill'⟩)
        · exact .inl hflag
  · refine ⟨c, Threads.update_other hne hc, hlabels, ?_⟩
    rcases hkept with hflag | hover | ⟨hstarted', -, hwill⟩
    · exact .inl hflag
    · exact .inr (.inl hover)
    · exact .inr (.inr ⟨hstarted', hwill⟩)

omit [Semaphore σ] in
theorem Owed.spawn {labels : Finset TaskLabel} (hs : Owed cfg pid t i labels s)
    (hquiet : s.shared.Quiet sh) : Owed cfg pid t i labels (s.spawn sh sp) := by
  have htask := Task.Evolves.touched (hquiet.tasks t)
  obtain ⟨c, hc, hlabels, hcase⟩ := hs.call
  refine ⟨hquiet.nextTaskId ▸ hs.created, ?_, c, Threads.spawn_other hc, hlabels,
    Started.or_spawn hquiet hcase⟩
  rw [Threads.spawn_shared, htask.labels]
  exact hs.labelled

theorem Owed.steps {labels : Finset TaskLabel}
    (hreach : (poolMachine σ R cfg).Reachable Machine.anyStep s)
    (h : (poolMachine σ R cfg).Steps ok s s') (hs : Owed cfg pid t i labels s) :
    Owed cfg pid t i labels s' :=
  Pool.invariant hreach (fun hr hi _ hp hrun => hi.update hr hp hrun)
    (fun _ hi _ hcall => hi.spawn (Call.enter_quiet hcall).1) h hs

/-! ## No other task is hit -/

/-- Some process has put task `t` into the registry. -/
def Entered (s : Pool σ R) (t : Nat) : Prop := ∃ pid p, s.At pid p ∧ p.entered t

theorem Entered.update (hp : s.At pid p) (hstep : Proc.Step cfg pid s.shared p sh p' sp)
    (hs : Entered s t) : Entered (s.update pid sh p' sp) t := by
  obtain ⟨qid, q, hq, hentered⟩ := hs
  by_cases hne : qid = pid
  · subst hne
    obtain rfl := Option.some.inj (hp.symm.trans hq)
    rcases hstep.entered_kept hentered with hself | ⟨r, rfl, hnew⟩
    · exact ⟨qid, p', Threads.update_self hp, hself⟩
    · exact ⟨s.procs.length, r, Threads.update_new r, hnew⟩
  · exact ⟨qid, q, Threads.update_other hne hq, hentered⟩

omit [Semaphore σ] in
/-- What a read of the registry returns was put into it. -/
theorem Registry.entered_of_read (hs : Registry cfg s) {found : List Nat} {shard : Nat}
    (hread : s.shared.readTokens cfg shard = some found) (ht : t ∈ found) : Entered s t := by
  have hholds : ∃ i, s.shared.holds cfg t i := by
    unfold Shared.readTokens at hread
    unfold Shared.holds
    cases hkind : cfg.kind with
    | strict =>
      simp only [hkind] at hread ⊢
      split at hread
      · cases hread
        exact ActiveSlots.mem_allTokens.mp ht
      · cases hread
    | rlxd =>
      simp only [hkind] at hread ⊢
      obtain ⟨r, hr, rfl⟩ := Option.map_eq_some_iff.mp hread
      obtain ⟨j, hj⟩ := ActiveSlots.mem_allTokens.mp (List.mem_of_mem_filter ht)
      exact ⟨shard, r.slots, j, by rw [Shared.shardSlots, hr, Option.map_some], hj⟩
  obtain ⟨i, hi⟩ := hholds
  exact hs.entered t i hi

/-- What the calls have found are matching tasks that were put into the registry; and a call
without labels looks for none. -/
structure Found (s : Pool σ R) : Prop where
  matching : ∀ pid c t, s.At pid (.labelCancel c) → t ∈ c.pc.tokens →
    t < s.shared.nextTaskId ∧ ¬Disjoint (s.shared.tasks t).core.labels c.labels ∧ Entered s t
  empty : ∀ pid c, s.At pid (.labelCancel c) → c.labels = ∅ → c.pc = .start ∨ c.pc = .returned

theorem lt_of_entered (h : (poolMachine σ R cfg).Reachable ok s) (ht : Entered s t) :
    t < s.shared.nextTaskId := by
  obtain ⟨pid, p, hp, hentered⟩ := ht
  exact lt_of_carries h hp (Proc.carries_of_entered hentered)

theorem Found.update {b : Signal} (hreach : (poolMachine σ R cfg).Reachable ok s) (hs : Found s)
    (hp : s.At pid p) (hrun : Proc.run cfg b pid s.shared p = some (sh, p', sp)) :
    Found (s.update pid sh p' sp) := by
  have hstep := Proc.step_of_run hrun
  have hevolves := Shared.Evolves.proc hstep
  have hkept {labels : Finset TaskLabel} {t : Nat} (h : t < s.shared.nextTaskId ∧
      ¬Disjoint (s.shared.tasks t).core.labels labels ∧ Entered s t) :
      t < sh.nextTaskId ∧ ¬Disjoint (sh.tasks t).core.labels labels ∧
        Entered (s.update pid sh p' sp) t := by
    refine ⟨h.1.trans_le hevolves.nextTaskId, ?_, h.2.2.update hp hstep⟩
    rw [(hevolves.tasks t h.1).labels]
    exact h.2.1
  have hstarted {c : LabelCancelCall} : sp ≠ some (.labelCancel c) := by
    rintro rfl
    rcases Proc.started_of_run hrun with ⟨w, heq⟩ | heq
    · cases heq
    · cases heq
  refine ⟨fun qid c t hc ht => ?_, fun qid c hc hempty => ?_⟩
  · rcases Threads.update_getElem? hp hc with ⟨rfl, rfl⟩ | ⟨-, hold⟩ | ⟨-, hnew⟩
    · obtain ⟨c₀, rfl, hcstep, -⟩ := Proc.labelCancel_of_run hrun
      rw [hcstep.labels_kept]
      rcases hcstep.tokens ht with hbefore | ⟨shard, found, hread, hmem, hmatch⟩
      · exact hkept (hs.matching qid c₀ t hp hbefore)
      · have hentered := (registry hreach).entered_of_read hread hmem
        exact hkept ⟨lt_of_entered hreach hentered, hmatch, hentered⟩
    · exact hkept (hs.matching qid c t hold ht)
    · exact absurd hnew hstarted
  · rcases Threads.update_getElem? hp hc with ⟨rfl, rfl⟩ | ⟨-, hold⟩ | ⟨-, hnew⟩
    · obtain ⟨c₀, rfl, hcstep, -⟩ := Proc.labelCancel_of_run hrun
      rw [hcstep.labels_kept] at hempty
      have hbefore := hs.empty qid c₀ hp hempty
      cases hcstep with
      | refuse => exact .inr rfl
      | start _ hlabels => exact absurd hempty hlabels
      | cancelEnd => exact .inr rfl
      | sweep hpc | sweepEnd hpc | cancelTask hpc =>
        rw [hpc] at hbefore
        rcases hbefore with heq | heq <;> cases heq
    · exact hs.empty qid c hold hempty
    · exact absurd hnew hstarted

theorem found (h : (poolMachine σ R cfg).Reachable ok s) : Found s := by
  refine Pool.invariant .refl (fun hr hs _ hp hrun => hs.update hr hp hrun) ?_ h ⟨?_, ?_⟩
  · intro s c sh sp hreach hs _ hcall
    have hquiet := (Call.enter_quiet hcall).1
    refine ⟨fun qid c t hc ht => ?_, fun qid c hc hempty => ?_⟩
    · rcases Threads.spawn_getElem? hc with hold | ⟨-, hnew⟩
      · obtain ⟨hlt, hmatch, ⟨rid, r, hr, hentered⟩⟩ := hs.matching qid c t hold ht
        refine ⟨hquiet.nextTaskId ▸ hlt, ?_, rid, r, Threads.spawn_other hr, hentered⟩
        rw [Threads.spawn_shared, (Task.Evolves.touched (hquiet.tasks t)).labels]
        exact hmatch
      · rw [Call.enter_labelCancel (hnew ▸ hcall)] at ht
        cases ht
    · rcases Threads.spawn_getElem? hc with hold | ⟨-, hnew⟩
      · exact hs.empty qid c hold hempty
      · exact .inl (Call.enter_labelCancel (hnew ▸ hcall))
  · intro pid c t hc
    cases (Pool.init_loop hc).2
  · intro pid c hc
    cases (Pool.init_loop hc).2

/-- A task that was put into the registry is in no lane. -/
theorem queued_of_entered (h : (poolMachine σ R cfg).Reachable ok s) (ht : Entered s t) :
    s.shared.queued t = 0 := by
  obtain ⟨pid, p, hp, hentered⟩ := ht
  have hcarried := task_carried h t
  have hle := Threads.le_tally (g := fun p => names t p.carries) hp
  simp only [Proc.carries_of_entered hentered, names_self] at hle
  have hcreated := s.shared.created_le t
  omega

end Runs

/-- Cancellation by label hits exactly the matching active tasks. A call that returns has set
the cancel flag of every task that has one of its labels and was in the registry when the call
began, unless the wrapper of the task has left the registry. A step of a call sets the flag of
no task without one of its labels, of none that was never put into the registry, and of none
that is queued. A call without labels changes nothing but the use of its manager handle. -/
theorem label_cancel_exact (σ R : Type) [Semaphore σ] (cfg : PoolConfig) :
    (∀ (pid t i : Nat) (c c' : LabelCancelCall) (s s' : Pool σ R),
      (poolMachine σ R cfg).Reachable Machine.anyStep s → s.At pid (.labelCancel c) →
      c.pc = .start → Started s t i → ¬Disjoint (s.shared.tasks t).core.labels c.labels →
      (poolMachine σ R cfg).Steps Machine.anyStep s s' → s'.At pid (.labelCancel c') →
      c'.pc = .returned → s'.shared.isCancelled t = true ∨ Over s' t) ∧
    (∀ (pid t : Nat) (c : LabelCancelCall) (s s' : Pool σ R) (b : Signal),
      (poolMachine σ R cfg).Reachable Machine.anyStep s → s.At pid (.labelCancel c) →
      (poolMachine σ R cfg).step s (.run b pid) = some s' → s'.shared.isCancelled t = true →
      s.shared.isCancelled t = true ∨
        ¬Disjoint (s.shared.tasks t).core.labels c.labels ∧ Entered s t ∧
          s.shared.queued t = 0) ∧
    ∀ (pid : Nat) (c : LabelCancelCall) (s s' : Pool σ R) (b : Signal),
      (poolMachine σ R cfg).Reachable Machine.anyStep s → s.At pid (.labelCancel c) →
      c.labels = ∅ → (poolMachine σ R cfg).step s (.run b pid) = some s' →
      s'.shared = s.shared.unborrow c.clone := by
  refine ⟨?_, ?_, ?_⟩
  · intro pid t i c c' s s' hreach hc hpc hstarted hmatch hsteps hc' hpc'
    obtain ⟨qid, q, hq, hreg⟩ := hstarted
    have howed : Owed cfg pid t i c.labels s :=
      ⟨lt_of_carries hreach hq (Proc.carries_of_registered hreg), hmatch, c, hc, rfl,
        .inr (.inr ⟨⟨qid, q, hq, hreg⟩, by rw [LabelCancelCall.willCancel, hpc]; trivial⟩)⟩
    obtain ⟨c₁, hc₁, -, hcase⟩ := (howed.steps hreach hsteps).call
    obtain rfl := Proc.labelCancel.inj (Option.some.inj (hc₁.symm.trans hc'))
    rcases hcase with hflag | hover | ⟨-, hwill⟩
    · exact .inl hflag
    · exact .inr hover
    · rw [LabelCancelCall.willCancel, hpc'] at hwill
      exact hwill.elim
  · intro pid t c s s' b hreach hc hstep hflag
    obtain ⟨p, sh, p', sp, hp, hrun, rfl⟩ := Program.step_run hstep
    obtain rfl := Option.some.inj (hc.symm.trans hp)
    cases Proc.callStep_of_run (p := .labelCancel c) True.intro hrun with
    | labelCancel hcstep =>
      rcases hcstep.mem_tokens hflag with hold | hmem
      · exact .inl hold
      · obtain ⟨-, hmatch, hentered⟩ := (found hreach).matching pid c t hc hmem
        exact .inr ⟨hmatch, hentered, queued_of_entered hreach hentered⟩
  · intro pid c s s' b hreach hc hempty hstep
    obtain ⟨p, sh, p', sp, hp, hrun, rfl⟩ := Program.step_run hstep
    obtain rfl := Option.some.inj (hc.symm.trans hp)
    have hbefore := (found hreach).empty pid c hc hempty
    cases Proc.callStep_of_run (p := .labelCancel c) True.intro hrun with
    | labelCancel hcstep =>
      cases hcstep with
      | refuse => rfl
      | start _ hlabels => exact absurd hempty hlabels
      | sweep hpc | sweepEnd hpc | cancelTask hpc | cancelEnd hpc =>
        rw [hpc] at hbefore
        rcases hbefore with heq | heq <;> cases heq

/-- Task 0 runs with label red and task 1, with label blue, is queued, when two calls begin: one
with both labels and one without labels. -/
def labelCancelsBegin : Pool FairSemaphore Nat :=
  let M := poolMachine FairSemaphore Nat (.manager 1 2 "pool")
  M.after (fun _ _ => true)
    (.call (.submit 0 {"red"} .never) :: stepping [1, 1, 1, 1, 1, 1, 1, 1] ++
      stepping [0, 0, 0, 0, 0, 0, 0, 0, 0] ++ stepping [2] ++
      .call (.submit 0 {"blue"} .never) :: stepping [3, 3, 3, 3, 3, 3, 3, 3] ++
      [.call (.cancelLabels 0 {"red", "blue"}), .call (.cancelLabels 0 ∅)]) M.init

/-- The first call has found task 0. -/
def labelFound : Pool FairSemaphore Nat :=
  (poolMachine FairSemaphore Nat (.manager 1 2 "pool")).after (fun _ _ => true)
    (stepping [4, 4, 4]) labelCancelsBegin

/-- It has cancelled it and returned. -/
def labelCancelled : Pool FairSemaphore Nat :=
  (poolMachine FairSemaphore Nat (.manager 1 2 "pool")).after (fun _ _ => true)
    (stepping [4, 4]) labelFound

theorem label_cancel_exact_running :
    labelCancelled.shared.isCancelled 1 = false ∧ labelCancelled.shared.queued 1 = 1 ∧
      (labelCancelled.shared.isCancelled 0 = true ∨ Over labelCancelled 0) ∧
      (labelFound.shared.isCancelled 0 = true ∨
        ¬Disjoint (labelFound.shared.tasks 0).core.labels ({"red", "blue"} : Finset TaskLabel) ∧
          Entered labelFound 0 ∧ labelFound.shared.queued 0 = 0) ∧
      ((poolMachine FairSemaphore Nat (.manager 1 2 "pool")).after (fun _ _ => true)
        (stepping [5]) labelCancelsBegin).shared = labelCancelsBegin.shared.unborrow 0 := by
  have hbegin : (poolMachine FairSemaphore Nat (.manager 1 2 "pool")).Reachable Machine.anyStep
      labelCancelsBegin := (Machine.steps_after _ _ _ _).any
  have hfound : (poolMachine FairSemaphore Nat (.manager 1 2 "pool")).Steps Machine.anyStep
      labelCancelsBegin labelFound := (Machine.steps_after _ _ _ _).any
  obtain ⟨hhit, hspared, hempty⟩ :=
    label_cancel_exact FairSemaphore Nat (.manager 1 2 "pool")
  refine ⟨rfl, rfl, ?_, ?_, ?_⟩
  · exact hhit 4 0 0 ⟨0, {"red", "blue"}, .start⟩ ⟨0, {"red", "blue"}, .returned⟩ labelCancelsBegin labelCancelled
      hbegin rfl rfl ⟨2, _, rfl, rfl⟩ (by decide)
      (hfound.trans (Machine.steps_after _ _ _ _).any) rfl rfl
  · exact hspared 4 0 ⟨0, {"red", "blue"}, .cancelAll [0]⟩ labelFound _ .step (hbegin.trans hfound) rfl rfl rfl
  · exact hempty 5 ⟨0, ∅, .start⟩ labelCancelsBegin _ .step hbegin rfl rfl rfl

end FuturesOrchestra
