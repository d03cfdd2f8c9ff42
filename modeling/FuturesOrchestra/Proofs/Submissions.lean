import FuturesOrchestra.Proofs.Stuck
import FuturesOrchestra.Proofs.Rejection

/-!
# What a submission returns

A handle that `submit` returns is the handle of the caller's own task, with an id, the
labels and the future of that call, and no other call returns it. An error means that the
pool is shut down.
-/

namespace FuturesOrchestra

open Interleaving

variable {σ R : Type} {cfg : PoolConfig} {pid t : Nat} {sh sh' : Shared σ R}
  {sp : Option (Proc R)} {p p' : Proc R}

/-! ## Whose task it is -/

/-- The task that the call has created, as long as it has not withdrawn it. -/
def SubmitPc.issues : SubmitPc → Option Nat
  | .returned (.ok t) => some t
  | .returned (.error _) => none
  | pc => pc.task

def Proc.issues : Proc R → Option Nat
  | .submit c => c.pc.issues
  | _ => none

/-- The task as the call has asked for it. -/
structure Shared.Made (sh : Shared σ R) (c : SubmitCall R) (t : Nat) : Prop where
  created : t < sh.nextTaskId
  taskId : (sh.tasks t).core.taskId = .ofNat t
  labels : (sh.tasks t).core.labels = c.labels
  future : (sh.tasks t).future = c.future

theorem Shared.Made.evolve {c c' : SubmitCall R} (h : sh.Made c t) (hevolves : sh.Evolves sh')
    (hlabels : c'.labels = c.labels) (hfuture : c'.future = c.future) : sh'.Made c' t where
  created := h.created.trans_le hevolves.nextTaskId
  taskId := (hevolves.tasks t h.created).taskId.trans h.taskId
  labels := ((hevolves.tasks t h.created).labels.trans h.labels).trans hlabels.symm
  future := ((hevolves.tasks t h.created).future.trans h.future).trans hfuture.symm

/-- The call is what created the task or will return it. -/
structure Issues (s : Pool σ R) : Prop where
  made : ∀ pid c t, s.At pid (.submit c) → c.pc.issues = some t → s.shared.Made c t
  returned : ∀ pid c t, s.At pid (.submit c) → c.pc = .returned (.ok t) →
    (s.shared.tasks t).accepted = true
  accepted : ∀ t, (s.shared.tasks t).accepted = true →
    ∃ pid c, s.At pid (.submit c) ∧ c.pc = .returned (.ok t)

section Steps

variable [Semaphore σ]

theorem SubmitStep.request_kept {kind : PoolKind} {c c' : SubmitCall R}
    (h : SubmitStep kind pid sh c sh' c' sp) : c'.labels = c.labels ∧ c'.future = c.future := by
  cases h <;> exact ⟨rfl, rfl⟩

theorem SubmitStep.not_over {kind : PoolKind} {c c' : SubmitCall R}
    (h : SubmitStep kind pid sh c sh' c' sp) : c.pc.over = false := by
  cases h with
  | refuse hpc | reject hpc | abandon hpc => rcases hpc with hpc | hpc <;> simp [hpc, SubmitPc.over]
  | _ => simp [SubmitPc.over, *]

/-- A call gets its task when it creates it. -/
theorem SubmitStep.issues {kind : PoolKind} {c c' : SubmitCall R}
    (h : SubmitStep kind pid sh c sh' c' sp) (hissues : c'.pc.issues = some t) :
    c.pc.issues = some t ∨ sh'.Made c' t := by
  cases h with
  | create hkind hpc | createScan hkind hpc =>
    obtain rfl : sh.nextTaskId = t := Option.some.inj hissues
    refine .inr ⟨Nat.lt_succ_self _, ?_, ?_, ?_⟩
    · simp [Task.new, TaskCore.new]
    · simp [Task.new, TaskCore.new, SubmitCall.goto]
    · simp [Task.new, SubmitCall.goto]
  | push hpc | spawn _ hpc =>
    rw [hpc]
    exact .inl hissues
  | checkToken | checkClosed | refuse | reject | selectCancelled | pushFails | abandon =>
    cases hissues
  | _ => simp_all [SubmitPc.issues, SubmitPc.task]

theorem SubmitStep.accepts_own {kind : PoolKind} {c c' : SubmitCall R}
    (h : SubmitStep kind pid sh c sh' c' sp) (haccepted : (sh'.tasks t).accepted = true) :
    (sh.tasks t).accepted = true ∨ c'.pc = .returned (.ok t) := by
  have haccept {u : Nat} {sh₁ : Shared σ R} (htasks : sh₁.tasks = sh.tasks)
      (h : ((sh₁.modifyTask u Task.accept).tasks t).accepted = true) :
      (sh.tasks t).accepted = true ∨ SubmitPc.returned (.ok u) = .returned (.ok t) := by
    by_cases ht : t = u
    · exact .inr (by rw [ht])
    · exact .inl (by simpa [ht, htasks] using h)
  cases h with
  | create | createScan =>
    refine .inl ?_
    by_cases ht : t = sh.nextTaskId
    · simp [ht, Task.new] at haccepted
    · simpa [ht] using haccepted
  | reject | selectCancelled | abandon | pushFails =>
    refine .inl ?_
    rwa [Shared.withdraw_kept Task.accepted Task.dropSender_accepted fun _ => rfl] at haccepted
  | push | spawn => exact haccept rfl haccepted
  | _ => exact .inl haccepted

/-- A call that has just returned a handle has accepted the task. -/
theorem SubmitStep.returns {kind : PoolKind} {c c' : SubmitCall R}
    (h : SubmitStep kind pid sh c sh' c' sp) (hpc : c'.pc = .returned (.ok t)) :
    (sh'.tasks t).accepted = true := by
  cases h with
  | push | spawn =>
    obtain rfl := Except.ok.inj (SubmitPc.returned.inj hpc)
    simp [Task.accept]
  | _ => cases hpc

theorem SubmitStep.issued_le {kind : PoolKind} {c c' : SubmitCall R}
    (h : SubmitStep kind pid sh c sh' c' sp) :
    names t c'.pc.issues + sh.created t ≤ names t c.pc.issues + sh'.created t := by
  cases h with
  | create hkind hpc | createScan hkind hpc =>
    rw [Shared.created_createTask]
    simp only [SubmitPc.issues, SubmitPc.task, SubmitCall.goto_pc]
    omega
  | reject | selectCancelled | abandon | pushFails =>
    simp [SubmitPc.issues, SubmitPc.task, Shared.created]
  | _ => simp [SubmitPc.issues, SubmitPc.task, Shared.created, *]

/-- No task is issued twice. -/
theorem issued_le {ok : Pool σ R → PoolEvent R → Prop} {s : Pool σ R}
    (h : (poolMachine σ R cfg).Reachable ok s) (t : Nat) :
    (s.tally fun p => names t p.issues) ≤ s.shared.created t := by
  have hbound : 0 + (s.tally fun p => names t p.issues) ≤ s.shared.created t := by
    refine Pool.bounded (f := fun _ => 0) (k := fun sh => sh.created t) ?_ ?_ ?_ ?_ ?_
      (fun _ _ _ => rfl) h ?_
    · intro pid sh c sh' c' sp hstep
      have hstarted : Threads.started (fun p => names t (Proc.issues p)) sp = 0 := by
        cases hstep <;> rfl
      have hle := hstep.issued_le (t := t)
      rw [hstarted]
      simp only [Proc.issues]
      omega
    · intro pid sh d sh' d' sp hstep
      have hcreated : sh'.created t = sh.created t := by cases hstep <;> rfl
      have hstarted : Threads.started (fun p => names t (Proc.issues p)) sp = 0 := by
        cases hstep <;> rfl
      rw [hcreated, hstarted]
      exact le_rfl
    · intro sh w sh' w' hstep
      have hcreated : sh'.created t = sh.created t := by cases hstep <;> rfl
      rw [hcreated]
      exact le_rfl
    · intro sh sh' hquiet
      rw [Shared.created_eq hquiet.nextTaskId]
    · intro p hp
      cases p <;> first | rfl | exact hp.elim
    · show 0 + ((Pool.new σ R cfg).tally fun p => names t p.issues) ≤ _
      rw [Pool.tally_new fun _ => rfl]
      exact Nat.zero_le _
  omega

variable {s : Pool σ R} {ok : Pool σ R → PoolEvent R → Prop}

theorem issues (h : (poolMachine σ R cfg).Reachable ok s) : Issues s := by
  refine Pool.invariant (I := Issues) .refl ?_ ?_ h ?_
  · intro s b pid p sh p' sp hreach hs _ hp hrun
    have hstep := Proc.step_of_run hrun
    have hevolves := Shared.Evolves.proc hstep
    have hkept (u : Nat) (hu : (s.shared.tasks u).accepted = true) :
        (sh.tasks u).accepted = true :=
      (hevolves.tasks u (created_of_accepted hreach hu).1).accepted hu
    refine ⟨fun qid c t hq hissues => ?_, fun qid c t hq hpc => ?_, fun t ht => ?_⟩
    · rcases Threads.update_getElem? hp hq with ⟨rfl, rfl⟩ | ⟨-, hold⟩ | ⟨-, hnew⟩
      · cases hstep with
        | submit hstep =>
          obtain ⟨hlabels, hfuture⟩ := hstep.request_kept
          rcases hstep.issues hissues with hbefore | hmade
          · exact (hs.made _ _ t hp hbefore).evolve hevolves hlabels hfuture
          · exact hmade
        | bystander _ hby' => exact hby'.elim
      · exact (hs.made _ _ t hold hissues).evolve hevolves rfl rfl
      · rcases Proc.started_of_run (hnew ▸ hrun) with ⟨w, heq⟩ | heq <;> cases heq
    · rcases Threads.update_getElem? hp hq with ⟨rfl, rfl⟩ | ⟨-, hold⟩ | ⟨-, hnew⟩
      · cases hstep with
        | submit hstep => exact hstep.returns hpc
        | bystander _ hby' => exact hby'.elim
      · exact hkept t (hs.returned _ _ t hold hpc)
      · rcases Proc.started_of_run (hnew ▸ hrun) with ⟨w, heq⟩ | heq <;> cases heq
    · have hother (hbefore : (s.shared.tasks t).accepted = true) :
          ∃ qid c, (s.update pid sh p' sp).At qid (.submit c) ∧ c.pc = .returned (.ok t) := by
        obtain ⟨qid, c, hc, hpc⟩ := hs.accepted t hbefore
        refine ⟨qid, c, Threads.update_other ?_ hc, hpc⟩
        rintro rfl
        obtain rfl := Option.some.inj (hp.symm.trans hc)
        cases hstep with
        | submit hstep =>
          have hgoing := hstep.not_over
          rw [hpc] at hgoing
          cases hgoing
        | bystander hby => exact hby.elim
      cases hstep with
      | @submit _ _ c' _ hstep =>
        rcases hstep.accepts_own ht with hbefore | hreturned
        · exact hother hbefore
        · exact ⟨pid, c', Threads.update_self hp, hreturned⟩
      | loop hstep => exact hother (hstep.accepted_kept ▸ ht)
      | wrapper hstep => exact hother (hstep.accepted_kept ▸ ht)
      | bystander _ _ hstep => exact hother ((hstep.1.tasks t).accepted ▸ ht)
  · intro s c sh sp _ hs _ hcall
    have hquiet := (Call.enter_quiet hcall).1
    refine ⟨fun qid d t hq hissues => ?_, fun qid d t hq hpc => ?_, fun t ht => ?_⟩
    · rcases Threads.spawn_getElem? hq with hold | ⟨-, hnew⟩
      · exact (hs.made _ _ t hold hissues).evolve (.quiet hquiet) rfl rfl
      · cases (Call.enter_quiet hcall).2 _ hnew with
        | bystander hby => exact hby.elim
        | submit => cases hissues
    · rcases Threads.spawn_getElem? hq with hold | ⟨-, hnew⟩
      · rw [Threads.spawn_shared, (hquiet.tasks t).accepted]
        exact hs.returned _ _ t hold hpc
      · cases (Call.enter_quiet hcall).2 _ hnew with
        | bystander hby => exact hby.elim
        | submit => cases hpc
    · rw [Threads.spawn_shared, (hquiet.tasks t).accepted] at ht
      obtain ⟨qid, d, hd, hpc⟩ := hs.accepted t ht
      exact ⟨qid, d, Threads.spawn_other hd, hpc⟩
  · refine ⟨fun pid c t hc => ?_, fun pid c t hc => ?_, fun t ht => ?_⟩
    · cases (Pool.init_loop hc).2
    · cases (Pool.init_loop hc).2
    · cases ht

/-! ## Why it failed -/

/-- A call that refuses has found the token cancelled or the queue closed. -/
theorem submitStep_refuses {c c' : SubmitCall R} (hpc : c.pc = .checkToken ∨ c.pc = .checkClosed)
    (h : submitStep cfg pid sh c = some (sh', c', sp))
    (hover : c'.pc.over = true) : sh.token = true ∨ sh.queueClosed = true := by
  rcases hpc with hpc | hpc
  · left
    rw [← Bool.not_eq_false]
    intro htoken
    unfold submitStep at h
    split at h
    · simp only [FuturePoolManager.submit, hpc, htoken] at h
      cases h
      cases hover
    · simp only [FuturePoolManagerRlxd.submitInner, hpc, htoken] at h
      cases h
      cases hover
  · right
    rw [← Bool.not_eq_false]
    intro hclosed
    unfold submitStep at h
    split at h
    · simp only [FuturePoolManager.submit, hpc, hclosed] at h
      cases h
      cases hover
    · simp only [FuturePoolManagerRlxd.submitInner, hpc, hclosed] at h
      cases h
      cases hover

/-- The error that a step of a call returns, and what the call has seen. -/
theorem submitStep_fails {c c' : SubmitCall R} {e : PoolError}
    (hstep : SubmitStep cfg.kind pid sh c sh' c' sp)
    (h : submitStep cfg pid sh c = some (sh', c', sp)) (hpc : c'.pc = .returned (.error e)) :
    (e = .poolShuttingDown ∧ (sh.token = true ∨ sh.queueClosed = true)) ∨
      (e = .queueSendChannelClosed ∧
        ∃ (lane : Nat) (l : Lane), sh.lanes[lane]? = some l ∧ l.receiver = false) := by
  have herror {e' : PoolError} (heq : SubmitPc.returned (.error e') = .returned (.error e)) :
      e = e' := (Except.error.inj (SubmitPc.returned.inj heq)).symm
  cases hstep with
  | refuse hpc' =>
    exact .inl ⟨herror hpc, submitStep_refuses hpc' h rfl⟩
  | reject _ hdown => exact .inl ⟨herror hpc, hdown⟩
  | selectCancelled _ htoken => exact .inl ⟨herror hpc, .inl htoken⟩
  | pushFails _ hlane hrecv => exact .inr ⟨herror hpc, _, _, hlane, hrecv⟩
  | _ => cases hpc

/-- What the pool looks like once a call has failed with `e`. -/
def Shared.Refuses (sh : Shared σ R) (e : PoolError) : Prop :=
  sh.token = true ∧ (e = .poolShuttingDown ∨ e = .queueSendChannelClosed)

/-- The step of a call that fails is a step of the function. -/
theorem Proc.submitStep_of_run {b : Signal} {c c' : SubmitCall R} {e : PoolError}
    (hrun : Proc.run cfg b pid sh (.submit c) = some (sh', .submit c', sp))
    (hpc : c'.pc = .returned (.error e)) : submitStep cfg pid sh c = some (sh', c', sp) := by
  cases b with
  | step =>
    obtain ⟨d, hd, heq⟩ := Next.toProc_eq_some hrun
    cases heq
    exact hd
  | timeout | panic => cases hrun
  | abandon =>
    obtain ⟨d, hd, heq⟩ := Next.toProc_eq_some hrun
    cases heq
    rw [SubmitCall.abandonAt_pc hd] at hpc
    cases hpc

/-- A call fails only when the token is cancelled. -/
theorem Proc.refuses_of_run {b : Signal} {c' : SubmitCall R} {e : PoolError} (hcfg : cfg.Built)
    (h : (poolMachine σ R cfg).Reachable (fun s a => sparesDispatchers s a = true) s)
    (hp : s.At pid p) (hrun : Proc.run cfg b pid s.shared p = some (sh', .submit c', sp))
    (hpc : c'.pc = .returned (.error e)) : sh'.Refuses e := by
  have hevolves := Shared.Evolves.proc (Proc.step_of_run hrun)
  obtain ⟨c, rfl, hstep⟩ := Proc.submit_of_run hrun
  have hfails := submitStep_fails hstep (Proc.submitStep_of_run hrun hpc) hpc
  have hborrowed : (Proc.submit c).borrowed = some c.clone := by
    simp [Proc.borrowed, hstep.not_over]
  have hspared : ∀ {s : Pool σ R} {b pid d}, sparesDispatchers s (.run b pid) = true →
      s.At pid (.loop d) → d.struck s.shared = true → s.shared.ending = true := by
    intro s b pid d hok hp hstruck
    simpa [sparesDispatchers, hp, hstruck] using hok
  -- while the token is open and the caller borrows a handle, all receivers are there
  have hset : s.shared.token = true := by
    by_contra hopen
    have htoken : s.shared.token = false := Bool.eq_false_of_not_eq_true hopen
    have hreceiver {i : Nat} {l : Lane} (hl : s.shared.lanes[i]? = some l) : l.receiver = true :=
      receiver_of_borrowed hspared h htoken hp hborrowed hl
    rcases hfails with ⟨-, hcancelled | hclosed⟩ | ⟨-, lane, l, hl, hgone⟩
    · exact hopen hcancelled
    · have hpos : 0 < s.shared.lanes.length := (dispatchers h).lanes ▸ hcfg.lanes_pos
      have hfirst := List.all_eq_true.mp hclosed _ (List.getElem_mem hpos)
      rw [hreceiver (List.getElem?_eq_getElem hpos)] at hfirst
      cases hfirst
    · rw [hreceiver hl] at hgone
      cases hgone
  exact ⟨hevolves.token hset, hfails.imp And.left And.left⟩

theorem refuses (hcfg : cfg.Built)
    (h : (poolMachine σ R cfg).Reachable (fun s a => sparesDispatchers s a = true) s) :
    ∀ pid c e, s.At pid (.submit c) → c.pc = .returned (.error e) → s.shared.Refuses e := by
  refine (h.invariant (I := fun s =>
    (poolMachine σ R cfg).Reachable (fun s a => sparesDispatchers s a = true) s ∧
      ∀ pid c e, s.At pid (.submit c) → c.pc = .returned (.error e) → s.shared.Refuses e)
    ?_ ⟨.refl, fun pid c e hc => ?_⟩).2
  · rintro s a s' ⟨hreach, hs⟩ hok hnext
    refine ⟨hreach.tail hok hnext, fun qid c e hq hpc => ?_⟩
    cases a with
    | run b pid =>
      obtain ⟨p, sh, p', sp, hp, hrun, rfl⟩ := Program.step_run hnext
      rcases Threads.update_getElem? hp hq with ⟨rfl, rfl⟩ | ⟨-, hold⟩ | ⟨-, hnew⟩
      · exact Proc.refuses_of_run hcfg hreach hp hrun hpc
      · obtain ⟨htoken, herror⟩ := hs qid c e hold hpc
        exact ⟨(Shared.Evolves.proc (Proc.step_of_run hrun)).token htoken, herror⟩
      · rcases Proc.started_of_run (hnew ▸ hrun) with ⟨w, heq⟩ | heq <;> cases heq
    | call d =>
      obtain ⟨sh, sp, hcall, rfl⟩ := Program.step_call hnext
      rcases Threads.spawn_getElem? hq with hold | ⟨-, hnew⟩
      · obtain ⟨htoken, herror⟩ := hs qid c e hold hpc
        exact ⟨(Call.enter_quiet hcall).1.token htoken, herror⟩
      · cases (Call.enter_quiet hcall).2 _ hnew with
        | bystander hby => exact hby.elim
        | submit => cases hpc
  · cases (Pool.init_loop hc).2

end Steps

/-- The handle is the caller's own. When a `submit` call has returned the handle of task
`t`, the task is accepted and has the labels and the future of that call and the id `t`;
no other call returns it, every accepted task is returned by some call, and as long as
the 64-bit id counter has not wrapped no other accepted task has its id. -/
theorem handles_are_the_callers (σ R : Type) [Semaphore σ] (cfg : PoolConfig) (s : Pool σ R)
    (h : (poolMachine σ R cfg).Reachable Machine.anyStep s) (t : Nat) :
    ((s.shared.tasks t).accepted = true ↔
        ∃ pid c, s.At pid (.submit c) ∧ c.pc = .returned (.ok t)) ∧
      ∀ pid c, s.At pid (.submit c) → c.pc = .returned (.ok t) →
        s.shared.Made c t ∧
          (∀ qid d, s.At qid (.submit d) → d.pc = .returned (.ok t) → qid = pid) ∧
          ∀ u, (s.shared.tasks u).accepted = true → s.shared.nextTaskId ≤ 2 ^ 64 →
            (s.shared.tasks u).core.taskId = (s.shared.tasks t).core.taskId → u = t := by
  have hissues := issues h
  refine ⟨⟨hissues.accepted t, ?_⟩, ?_⟩
  · rintro ⟨pid, c, hc, hpc⟩
    exact hissues.returned pid c t hc hpc
  intro pid c hc hpc
  have hnames {d : SubmitCall R} (hd : d.pc = .returned (.ok t)) : d.pc.issues = some t := by
    rw [hd]
    rfl
  have hmade := hissues.made pid c t hc (hnames hpc)
  refine ⟨hmade, fun qid d hd hdpc => ?_, fun u hu hwrap hid => ?_⟩
  · by_contra hne
    have hle : names t (Proc.submit d).issues + names t (Proc.submit c).issues ≤
        s.tally fun p => names t p.issues :=
      Threads.add_le_tally (g := fun p => names t (Proc.issues p)) hne hd hc
    have hone := s.shared.created_le t
    have hissued := issued_le h t
    rw [Proc.issues, Proc.issues, hnames hpc, hnames hdpc, names_self] at hle
    omega
  · obtain ⟨qid, d, hd, hdpc⟩ := hissues.accepted u hu
    have hother := hissues.made qid d u hd (by rw [hdpc]; rfl)
    have hsame : UInt64.ofNat u = UInt64.ofNat t := by
      rw [← hother.taskId, hid, hmade.taskId]
    have hnat := congrArg UInt64.toNat hsame
    rwa [UInt64.toNat_ofNat_of_lt' (hother.created.trans_le hwrap),
      UInt64.toNat_ofNat_of_lt' (hmade.created.trans_le hwrap)] at hnat

/-- The first task of a pool that has accepted two. -/
def acceptedTwo : Pool FairSemaphore Nat :=
  (poolMachine FairSemaphore Nat (.manager 1 2 "pool")).after (fun _ _ => true)
    (.call (.submit 0 {"red"} (.ready 7)) :: stepping [1, 1, 1, 1, 1, 1, 1, 1] ++
      .call (.submit 0 ∅ (.ready 8)) :: stepping [2, 2, 2, 2, 2, 2, 2, 2])
    (Pool.new _ _ (.manager 1 2 "pool"))

theorem handles_are_the_callers_two :
    (acceptedTwo.shared.tasks 0).core.labels = {"red"} ∧
      (acceptedTwo.shared.tasks 1).core.taskId = 1 := by
  have hreach : (poolMachine FairSemaphore Nat (.manager 1 2 "pool")).Reachable
      Machine.anyStep acceptedTwo := (Machine.steps_after _ _ _ _).any
  have hfirst : acceptedTwo.At 1 (.submit ⟨0, {"red"}, .ready 7, .returned (.ok 0), false⟩) := by
    rfl
  have hsecond : acceptedTwo.At 2 (.submit ⟨0, ∅, .ready 8, .returned (.ok 1), false⟩) := by rfl
  obtain ⟨-, hzero⟩ := handles_are_the_callers FairSemaphore Nat (.manager 1 2 "pool") acceptedTwo
    hreach 0
  obtain ⟨-, hone⟩ := handles_are_the_callers FairSemaphore Nat (.manager 1 2 "pool") acceptedTwo
    hreach 1
  exact ⟨(hzero 1 _ hfirst rfl).1.labels, (hone 2 _ hsecond rfl).1.taskId⟩

/-- A submission fails only because of a shutdown: in every run in which no destructor
panics under a dispatcher that was not told to end, a `submit` call that has returned an
error finds the shutdown token cancelled, and the error is `PoolShuttingDown` or
`QueueSendChannelClosed`. -/
theorem submissions_fail_only_at_shutdown (σ R : Type) [Semaphore σ] (cfg : PoolConfig)
    (hcfg : cfg.Built) (s : Pool σ R)
    (h : (poolMachine σ R cfg).Reachable (fun s a => sparesDispatchers s a = true) s) (pid : Nat)
    (c : SubmitCall R) (e : PoolError) (hc : s.At pid (.submit c))
    (hpc : c.pc = .returned (.error e)) :
    s.shared.token = true ∧ (e = .poolShuttingDown ∨ e = .queueSendChannelClosed) :=
  refuses hcfg h pid c e hc hpc

/-- A pool that is shut down, and a call that comes too late. -/
def lateCall : Pool FairSemaphore Nat :=
  (poolMachine FairSemaphore Nat (.rlxd 1 1 2 "pool")).after sparesDispatchers
    (.call (.clone 0) :: .call (.shutdown 0 .graceful) :: stepping [2, 2] ++
      .call (.submit 1 ∅ (.ready 7)) :: stepping [3])
    (Pool.new _ _ (.rlxd 1 1 2 "pool"))

theorem submissions_fail_only_at_shutdown_late : lateCall.shared.token = true := by
  have hrefused : lateCall.At 3
      (.submit ⟨1, ∅, .ready 7, .returned (.error .poolShuttingDown), false⟩) := by rfl
  exact (submissions_fail_only_at_shutdown FairSemaphore Nat (.rlxd 1 1 2 "pool")
    (.inr ⟨1, 1, 2, "pool", rfl⟩) lateCall (Machine.steps_after _ _ _ _) 3 _ .poolShuttingDown
    hrefused rfl).1

end FuturesOrchestra
