import FuturesOrchestra.Proofs.Borrows

/-!
# Backpressure

How many accepted tasks can wait. A dispatcher of the strict pool holds a permit
before it takes a task out of the queue, so that a task without a permit is queued and
has a slot. A dispatcher of the relaxed pool takes the task first and frees its slot,
so that each dispatcher can keep one more task waiting.
-/

namespace FuturesOrchestra

open Interleaving

variable {σ R : Type} {cfg : PoolConfig} {pid t : Nat} {sh sh' : Shared σ R}
  {sp : Option (Proc R)} {p p' : Proc R}

/-! ## What is counted -/

/-- Task `t` is in possession of a concurrency permit. -/
def Pool.possessed (s : Pool σ R) (t : Nat) : Bool :=
  s.procs.any fun p => p.carries == some t && 0 < p.permits

/-- Task `t` is accepted, not settled, and waits for a concurrency permit. -/
def Pool.waits (s : Pool σ R) (t : Nat) : Bool :=
  (s.shared.tasks t).accepted && !(s.shared.tasks t).sender.settled && !Pool.possessed s t

/-- Task `t` is accepted and neither settled nor rid of its permit. -/
def Pool.unfinished (s : Pool σ R) (t : Nat) : Bool :=
  (s.shared.tasks t).accepted && (!(s.shared.tasks t).sender.settled || Pool.possessed s t)

/-- How many tasks have the property `f`. -/
def Pool.count (f : Pool σ R → Nat → Bool) (s : Pool σ R) : Nat :=
  ((List.range s.shared.nextTaskId).filter (f s)).length

/-- The tasks that dispatchers may hold without a permit. -/
def PoolConfig.spare (cfg : PoolConfig) : Nat :=
  match cfg.kind with
  | .strict => 0
  | .rlxd => cfg.lanes

/-- The task that a dispatcher holds without a permit for it. -/
def LoopPc.idle (pc : LoopPc) : Option Nat := if pc.permits = 0 then pc.task else none

def Proc.idle : Proc R → Option Nat
  | .loop d => d.pc.idle
  | _ => none

/-- The task that a process holds together with a permit. -/
def Proc.held (p : Proc R) : Option Nat := if 0 < p.permits then p.carries else none

/-! ## Sums over the tasks -/

theorem length_filter_le_sum {f : Nat → Bool} {g : Nat → Nat} (l : List Nat)
    (h : ∀ t ∈ l, f t = true → 0 < g t) : (l.filter f).length ≤ (l.map g).sum := by
  induction l with
  | nil => exact le_rfl
  | cons t l ih =>
    have hrest := ih fun u hu => h u (List.mem_cons_of_mem t hu)
    rw [List.map_cons, List.sum_cons, List.filter_cons]
    split
    · next ht =>
      have hpos := h t List.mem_cons_self ht
      rw [List.length_cons]
      omega
    · omega

theorem sum_names_le (n : Nat) (o : Option Nat) :
    ((List.range n).map fun t => names t o).sum ≤ o.isSome.toNat := by
  show ((List.range n).map fun t => if o = some t then 1 else 0).sum ≤ o.isSome.toNat
  rw [sum_range_named]
  cases o with
  | none => exact le_rfl
  | some t =>
    split
    · exact le_rfl
    · exact Nat.zero_le _

theorem sum_count_le (n : Nat) (items : List Nat) :
    ((List.range n).map fun t => items.count t).sum ≤ items.length := by
  induction items with
  | nil => simp
  | cons u items ih =>
    have hcount (t : Nat) : (u :: items).count t = items.count t + names t (some u) := by
      by_cases ht : t = u
      · simp [ht, names_self]
      · simp [names_other ht, Ne.symm ht]
    have hone := sum_names_le n (some u)
    simp only [hcount, List.sum_map_add, List.length_cons]
    rw [Option.isSome_some, Bool.toNat_true] at hone
    omega

/-- Every queued task is a message. -/
theorem Shared.sum_queued_le (sh : Shared σ R) (n : Nat) :
    ((List.range n).map sh.queued).sum ≤ sh.messages := by
  have hswap := Threads.sum_tally (fun t (l : Lane) => l.items.count t) n
    (⟨(), sh.lanes⟩ : Threads Unit Lane)
  calc ((List.range n).map sh.queued).sum
      = (sh.lanes.map fun l => ((List.range n).map fun t => l.items.count t).sum).sum := hswap
    _ ≤ (sh.lanes.map fun l => l.items.length).sum :=
        List.sum_le_sum fun l _ => sum_count_le n l.items

/-! ## Dispatchers without a permit -/

variable [Semaphore σ]

/-- The loop is at a program point of the strict pool: it holds no task while it has no
permit. -/
def LoopPc.strict : LoopPc → Bool
  | .acquire hand | .acquireToken hand | .recheck hand | .exit _ hand => hand.isNone
  | .recv p | .recvToken p | .precheck p _ | .cancelSend p _ | .cancelLookup p _
  | .cancelNotify p _ | .cancelDrop p _ => p
  | .insertCount _ => false
  | _ => true

theorem LoopStep.strict {d d' : DispatcherLoop} (hstrict : cfg.kind = .strict)
    (h : LoopStep cfg pid sh d sh' d' sp) (hd : d.pc.strict = true) : d'.pc.strict = true := by
  cases h <;> simp_all [LoopPc.strict]

theorem LoopPc.idle_strict {pc : LoopPc} (h : pc.strict = true) : pc.idle = none := by
  cases pc <;> simp_all [LoopPc.strict, LoopPc.idle, LoopPc.permits, LoopPc.task]

omit [Semaphore σ] in
theorem WrapperPc.permits_of_unsettled {pc : WrapperPc R} (h : pc.unsettled = true) :
    pc.permits = 1 := by
  cases pc <;> first | rfl | cases h

/-- Counts the dispatcher loops. -/
def Proc.loops : Proc R → Nat
  | .loop _ => 1
  | _ => 0

section Runs

variable {ok : Pool σ R → PoolEvent R → Prop} {s : Pool σ R}

/-- What every step of a loop preserves of its program point. -/
theorem loop_point {P : LoopPc → Prop} (htop : P .top)
    (hstep : ∀ {pid : Nat} {sh sh' : Shared σ R} {d d' : DispatcherLoop} {sp : Option (Proc R)},
      LoopStep cfg pid sh d sh' d' sp → P d.pc → P d'.pc)
    (h : (poolMachine σ R cfg).Reachable ok s) {d : DispatcherLoop} (hd : s.At pid (.loop d)) :
    P d.pc := by
  refine Pool.invariant (I := fun s => ∀ pid d, s.At pid (.loop d) → P d.pc) .refl ?_ ?_ h ?_
    pid d hd
  · intro s b pid p sh p' sp _ hs _ hp hrun qid d hq
    rcases Threads.update_getElem? hp hq with ⟨-, rfl⟩ | ⟨-, hold⟩ | ⟨-, hnew⟩
    · obtain ⟨d₀, rfl, hnext⟩ := Proc.loop_of_run hrun
      exact hstep hnext (hs pid d₀ hp)
    · exact hs qid d hold
    · rcases Proc.started_of_run (hnew ▸ hrun) with ⟨w, heq⟩ | heq <;> cases heq
  · intro s c sh sp _ hs _ hcall qid d hq
    rcases Threads.spawn_getElem? hq with hold | ⟨-, hnew⟩
    · exact hs qid d hold
    · cases (Call.enter_quiet hcall).2 _ hnew with
      | bystander hby => exact hby.elim
  · intro pid d hd
    cases (Pool.init_loop hd).2
    exact htop

theorem loop_strict (hstrict : cfg.kind = .strict) (h : (poolMachine σ R cfg).Reachable ok s)
    {d : DispatcherLoop} (hd : s.At pid (.loop d)) : d.pc.strict = true :=
  loop_point (P := fun pc => pc.strict = true) rfl (fun hstep => hstep.strict hstrict) h hd

/-- There is one dispatcher loop for each lane. -/
theorem loops_counted (h : (poolMachine σ R cfg).Reachable ok s) :
    s.tally Proc.loops = cfg.lanes := by
  have hbalance : 0 + s.tally Proc.loops = cfg.lanes := by
    refine Pool.conserved (f := fun _ => 0) (k := fun _ => cfg.lanes) ?_ ?_ ?_ ?_ ?_
      (fun _ _ _ => rfl) h ?_
    · intro pid sh c sh' c' sp _ hstep
      cases hstep <;> rfl
    · intro pid sh d sh' d' sp _ hstep
      cases hstep <;> rfl
    · intros
      rfl
    · intros
      rfl
    · intro p hp
      cases p <;> first | rfl | exact hp.elim
    · show 0 + (Pool.new σ R cfg).tally Proc.loops = cfg.lanes
      simp [Threads.tally, Pool.new, Function.comp_def, Proc.loops]
  omega

/-- The tasks that dispatchers hold without a permit. -/
theorem sum_idle_le (h : (poolMachine σ R cfg).Reachable ok s) (n : Nat) :
    ((List.range n).map fun t => s.tally fun p => names t p.idle).sum ≤ cfg.spare := by
  calc ((List.range n).map fun t => s.tally fun p => names t p.idle).sum
      = s.tally fun p => ((List.range n).map fun t => names t p.idle).sum :=
        Threads.sum_tally _ _ s
    _ ≤ s.tally fun p => p.idle.isSome.toNat :=
        Threads.tally_mono fun _ p _ => sum_names_le n p.idle
    _ ≤ cfg.spare := by
        unfold PoolConfig.spare
        cases hkind : cfg.kind with
        | strict =>
          refine (Threads.tally_eq_zero fun pid p hp => ?_).le
          cases p with
          | loop d =>
            show d.pc.idle.isSome.toNat = 0
            rw [LoopPc.idle_strict (loop_strict hkind h hp)]
            rfl
          | _ => rfl
        | rlxd =>
          rw [← loops_counted h]
          refine Threads.tally_mono fun _ p _ => ?_
          cases p with
          | loop d => exact Bool.toNat_le _
          | _ => exact le_rfl

/-- The tasks that are held together with a permit. -/
theorem sum_held_le (h : (poolMachine σ R cfg).Reachable ok s) (n : Nat) :
    ((List.range n).map fun t => s.tally fun p => names t p.held).sum ≤ cfg.permits := by
  have hconserved := permits_conserved h
  calc ((List.range n).map fun t => s.tally fun p => names t p.held).sum
      = s.tally fun p => ((List.range n).map fun t => names t p.held).sum :=
        Threads.sum_tally _ _ s
    _ ≤ s.tally Proc.permits := by
        refine Threads.tally_mono fun _ p _ => (sum_names_le n p.held).trans ?_
        unfold Proc.held
        split
        · next hpos => exact (Bool.toNat_le _).trans hpos
        · exact Nat.zero_le _
    _ ≤ cfg.permits := by omega

/-- A task that waits is queued, or in the hand of a dispatcher without a permit. -/
theorem Pool.placed_of_waits (h : (poolMachine σ R cfg).Reachable ok s)
    (ht : Pool.waits s t = true) :
    0 < s.shared.queued t + s.tally fun p => names t p.idle := by
  simp only [Pool.waits, Bool.and_eq_true, Bool.not_eq_true'] at ht
  obtain ⟨⟨haccepted, hlive⟩, hunpossessed⟩ := ht
  obtain ⟨hlt, hsubmitting⟩ := created_of_accepted h haccepted
  have hplaced := task_placed h t
  have hcreated : s.shared.created t = 1 := if_pos hlt
  have hsettled : s.shared.settled t = 0 := by rw [Shared.settled, hlive]; rfl
  by_contra hzero
  have hqueued : s.shared.queued t = 0 := by omega
  have hidle : (s.tally fun p => names t p.idle) = 0 := by omega
  have hnobody : (s.tally fun p => names t p.owns) = 0 := by
    refine Threads.tally_eq_zero fun pid p hp => ?_
    by_contra hnames
    have howns : p.owns = some t := by
      by_contra hne
      exact hnames (if_neg hne)
    -- its owner has a permit, unless it is a dispatcher that waits for one
    have hpermit : p.permits = 0 := by
      by_contra hpos
      have hpossessed : Pool.possessed s t = true := by
        refine List.any_eq_true.mpr ⟨p, List.mem_of_getElem? hp, ?_⟩
        rw [Proc.carries_of_owns howns, beq_self_eq_true, Bool.true_and, decide_eq_true_eq]
        exact Nat.pos_of_ne_zero hpos
      rw [hunpossessed] at hpossessed
      cases hpossessed
    cases p with
    | submit c =>
      have hle := Threads.le_tally (g := Proc.submitting t) hp
      have hone : (Proc.submit c).submitting t = 1 := by
        simp only [Proc.owns] at howns
        rw [Proc.submitting, howns, names_self]
      omega
    | loop d =>
      have hle := Threads.le_tally (g := fun p => names t p.idle) hp
      have hone : names t (Proc.loop d : Proc R).idle = 1 := by
        simp only [Proc.owns, Proc.permits] at howns hpermit
        rw [Proc.idle, LoopPc.idle, if_pos hpermit, howns, names_self]
      simp only [hone] at hle
      omega
    | wrapper w =>
      have hunsettled : w.pc.unsettled = true := by
        by_contra hno
        rw [Proc.owns, if_neg hno] at howns
        cases howns
      rw [Proc.permits, WrapperPc.permits_of_unsettled hunsettled] at hpermit
      cases hpermit
    | _ => cases howns
  omega

theorem Pool.placed_of_unfinished (h : (poolMachine σ R cfg).Reachable ok s)
    (ht : Pool.unfinished s t = true) :
    0 < s.shared.queued t + (s.tally fun p => names t p.idle) + s.tally fun p => names t p.held := by
  cases hpossessed : Pool.possessed s t with
  | false =>
    have hwaits : Pool.waits s t = true := by
      simp only [Pool.unfinished, hpossessed, Bool.or_false, Bool.and_eq_true] at ht
      rw [Pool.waits, ht.1, ht.2, hpossessed]
      rfl
    have hplaced := Pool.placed_of_waits h hwaits
    omega
  | true =>
    obtain ⟨p, hmem, hp⟩ := List.any_eq_true.mp hpossessed
    obtain ⟨pid, hpid⟩ := List.getElem?_of_mem hmem
    simp only [Bool.and_eq_true, beq_iff_eq, decide_eq_true_eq] at hp
    have hle := Threads.le_tally (g := fun p => names t p.held) hpid
    have hone : names t p.held = 1 := by rw [Proc.held, if_pos hp.2, hp.1, names_self]
    simp only [hone] at hle
    omega

/-! ## The bounds -/

/-- Who waits and who is not finished, when the queue holds no more than its capacity. -/
theorem count_of_messages (h : (poolMachine σ R cfg).Reachable ok s)
    (hmessages : s.shared.messages ≤ cfg.queueSlots) :
    Pool.count Pool.waits s ≤ cfg.queueSlots + cfg.spare ∧
      Pool.count Pool.unfinished s ≤ cfg.permits + (cfg.queueSlots + cfg.spare) := by
  have hqueued := s.shared.sum_queued_le s.shared.nextTaskId
  have hidle := sum_idle_le h s.shared.nextTaskId
  have hheld := sum_held_le h s.shared.nextTaskId
  have hwaits := length_filter_le_sum (List.range s.shared.nextTaskId)
    fun t _ => Pool.placed_of_waits (t := t) h
  have hunfinished := length_filter_le_sum (List.range s.shared.nextTaskId)
    fun t _ => Pool.placed_of_unfinished (t := t) h
  rw [List.sum_map_add] at hwaits hunfinished
  rw [List.sum_map_add] at hunfinished
  exact ⟨hwaits.trans (by omega), hunfinished.trans (by omega)⟩

theorem messages_of_slots (hslots : s.slots = cfg.queueSlots) :
    s.shared.messages ≤ cfg.queueSlots := by
  unfold Pool.slots at hslots
  omega

/-- Nothing is put into a closed queue. -/
theorem Proc.messages_le_of_run {b : Signal} (hclosed : sh.queueClosed = true)
    (hrun : Proc.run cfg b pid sh p = some (sh', p', sp)) : sh'.messages ≤ sh.messages := by
  cases Proc.step_of_run hrun with
  | submit hstep =>
    cases hstep with
    | push hpc hlane hrecv =>
      have hgone := List.all_eq_true.mp hclosed _ (List.mem_of_getElem? hlane)
      rw [hrecv] at hgone
      cases hgone
    | _ => exact le_rfl
  | loop hstep =>
    cases hstep with
    | @recv t items receiver done _ _ hlane | @recvRlxd t items receiver done _ _ hlane
    | @recvDiscard t items receiver done _ _ hlane | @drain t items receiver done _ hlane =>
      have hmessages := Shared.messages_setLane ⟨items, receiver, done⟩ hlane
      simp [Shared.messages] at hmessages ⊢
      omega
    | @exitReceiver l _ hlane | @exitLast l _ hlane =>
      have hmessages := Shared.messages_setLane { l with receiver := false } hlane
      simp [Shared.messages] at hmessages ⊢
      omega
    | @drained receiver done _ hlane =>
      have hmessages := Shared.messages_setLane ⟨[], receiver, true⟩ hlane
      simp [Shared.messages] at hmessages ⊢
      omega
    | _ => exact le_rfl
  | wrapper hstep => cases hstep <;> exact le_rfl
  | bystander _ _ hstep => exact (Shared.messages_eq hstep.1.lanes).le

/-- With one lane every push goes into an open queue, until the queue is closed. -/
theorem pushesOpen_of_lane (hone : cfg.lanes = 1) (h : (poolMachine σ R cfg).Reachable ok s)
    (hopen : s.shared.queueClosed = false) (e : PoolEvent R) : pushesOpen s e = true := by
  cases e with
  | call c => rfl
  | run b pid =>
    refine (Option.all_eq_true _ _).mpr fun p hp => ?_
    rw [← Bool.not_eq_false, Bool.not_eq_false']
    intro hpushes
    have hlength := (dispatchers h).lanes
    cases p with
    | submit c =>
      have hall : s.shared.queueClosed = true := by
        cases hpc : c.pc with
        | push t lane =>
          simp only [Proc.pushesClosed, SubmitCall.pushesClosed, hpc] at hpushes
          obtain ⟨l, hl, hgone⟩ := (Option.any_eq_true _ _).mp hpushes
          obtain ⟨only, honly⟩ := List.length_eq_one_iff.mp (hlength.trans hone)
          rw [honly] at hl
          obtain rfl : only = l := by
            have hmem := List.mem_of_getElem? hl
            exact (List.mem_singleton.mp hmem).symm
          simp [Shared.queueClosed, honly, hgone]
        | _ => simp [Proc.pushesClosed, SubmitCall.pushesClosed, hpc] at hpushes
      rw [hopen] at hall
      cases hall
    | _ => simp [Proc.pushesClosed] at hpushes

/-- With one lane the queue has its slots until it is closed, and never holds more than its
capacity. -/
theorem lane_bounded (hone : cfg.lanes = 1) (h : (poolMachine σ R cfg).Reachable ok s) :
    (s.shared.queueClosed = false → s.slots = cfg.queueSlots) ∧
      s.shared.messages ≤ cfg.queueSlots := by
  refine (h.invariant (I := fun s => (poolMachine σ R cfg).Reachable ok s ∧
    (s.shared.queueClosed = false → s.slots = cfg.queueSlots) ∧
      s.shared.messages ≤ cfg.queueSlots) ?_
    ⟨.refl, fun _ => Pool.slots_new, messages_of_slots Pool.slots_new⟩).2
  rintro s e s' ⟨hreach, hslots, hmessages⟩ hok hnext
  have hkept (hopen : s.shared.queueClosed = false) : s'.slots = cfg.queueSlots := by
    rw [Pool.slots_step hnext, hslots hopen, pushesOpen_of_lane hone hreach hopen]
    rfl
  refine ⟨hreach.tail hok hnext, fun hopen' => hkept ?_, ?_⟩
  · rw [← Bool.not_eq_true] at hopen' ⊢
    intro hclosed
    refine hopen' ?_
    cases e with
    | run b pid =>
      obtain ⟨p, sh, p', sp, hp, hrun, rfl⟩ := Program.step_run hnext
      exact Proc.queueClosed_kept hrun hclosed
    | call c =>
      obtain ⟨sh, sp, hcall, rfl⟩ := Program.step_call hnext
      rw [Threads.spawn_shared, Shared.queueClosed, (Call.enter_quiet hcall).1.lanes]
      exact hclosed
  · cases hclosed : s.shared.queueClosed with
    | false => exact messages_of_slots (hkept hclosed)
    | true =>
      refine le_trans ?_ hmessages
      cases e with
      | run b pid =>
        obtain ⟨p, sh, p', sp, hp, hrun, rfl⟩ := Program.step_run hnext
        exact Proc.messages_le_of_run hclosed hrun
      | call c =>
        obtain ⟨sh, sp, hcall, rfl⟩ := Program.step_call hnext
        exact (Shared.messages_eq (Call.enter_quiet hcall).1.lanes).le

/-! ## At the bound -/

omit [Semaphore σ] in
/-- One more task has the property. -/
theorem Pool.count_lt {f : Pool σ R → Nat → Bool} {s' : Pool σ R}
    (hnext : s'.shared.nextTaskId = s.shared.nextTaskId)
    (hkept : ∀ u, f s u = true → f s' u = true) (ht : t < s.shared.nextTaskId)
    (hbefore : f s t = false) (hafter : f s' t = true) : Pool.count f s < Pool.count f s' := by
  unfold Pool.count
  rw [hnext]
  have hsub := List.monotone_filter_right (List.range s.shared.nextTaskId) hkept
  refine Nat.lt_of_le_of_ne hsub.length_le fun hlength => ?_
  have hmem : t ∈ (List.range s.shared.nextTaskId).filter (f s') :=
    List.mem_filter.mpr ⟨List.mem_range.mpr ht, hafter⟩
  rw [← hsub.eq_of_length hlength] at hmem
  rw [(List.mem_filter.mp hmem).2] at hbefore
  cases hbefore

theorem SubmitStep.token_kept {kind : PoolKind} {c c' : SubmitCall R}
    (h : SubmitStep kind pid sh c sh' c' sp) : sh'.token = sh.token := by
  cases h <;> rfl

/-- A task is accepted by the call that holds it. -/
theorem accepting_call {s' : Pool σ R} {e : PoolEvent R}
    (hnext : (poolMachine σ R cfg).step s e = some s')
    (hbefore : (s.shared.tasks t).accepted = false)
    (hafter : (s'.shared.tasks t).accepted = true) :
    ∃ b pid c sh c' sp, e = .run b pid ∧ s.At pid (.submit c) ∧
      SubmitStep cfg.kind pid s.shared c sh c' sp ∧ s' = s.update pid sh (.submit c') sp ∧
        c.pc.task = some t ∧ sh.nextTaskId = s.shared.nextTaskId ∧
          ∀ u, (sh.tasks u).sender = (s.shared.tasks u).sender := by
  cases e with
  | call c =>
    obtain ⟨sh, sp, hcall, rfl⟩ := Program.step_call hnext
    rw [Threads.spawn_shared, ((Call.enter_quiet hcall).1.tasks t).accepted, hbefore] at hafter
    cases hafter
  | run b pid =>
    obtain ⟨p, sh, p', sp, hp, hrun, rfl⟩ := Program.step_run hnext
    rw [Threads.update_shared] at hafter
    cases Proc.step_of_run hrun with
    | @submit c _ c' _ hstep =>
      rcases hstep.accepts hafter with hold | haccepts
      · rw [hbefore] at hold
        cases hold
      · exact ⟨b, pid, c, sh, c', sp, rfl, hp, hstep, rfl, haccepts⟩
    | loop hstep =>
      rw [hstep.accepted_kept, hbefore] at hafter
      cases hafter
    | wrapper hstep =>
      rw [hstep.accepted_kept, hbefore] at hafter
      cases hafter
    | bystander _ _ hstep =>
      rw [(hstep.1.tasks t).accepted, hbefore] at hafter
      cases hafter

/-- The task that a step accepts is one more that is not finished. -/
theorem unfinished_of_accepts {s' : Pool σ R} {e : PoolEvent R}
    (h : (poolMachine σ R cfg).Reachable ok s)
    (hnext : (poolMachine σ R cfg).step s e = some s')
    (hbefore : (s.shared.tasks t).accepted = false)
    (hafter : (s'.shared.tasks t).accepted = true) :
    Pool.count Pool.unfinished s < Pool.count Pool.unfinished s' := by
  obtain ⟨b, pid, c, sh, c', sp, rfl, hp, hstep, rfl, htask, hids, hsenders⟩ :=
    accepting_call hnext hbefore hafter
  have hevolves := Shared.Evolves.proc (Proc.Step.submit (R := R) hstep)
  have hlt := lt_of_carries h hp (t := t) htask
  have hlive := live_of_owns h hp (t := t) htask
  refine Pool.count_lt hids (fun u hu => ?_) hlt (by simp [Pool.unfinished, hbefore]) ?_
  · simp only [Pool.unfinished, Bool.and_eq_true, Bool.or_eq_true, Bool.not_eq_true',
      Threads.update_shared, hsenders] at hu ⊢
    obtain ⟨haccepted, hpending⟩ := hu
    refine ⟨(hevolves.tasks u (created_of_accepted h haccepted).1).accepted haccepted,
      hpending.imp id fun hpossessed => ?_⟩
    -- the call that accepts `t` holds nothing else
    obtain ⟨q, hmem, hq⟩ := List.any_eq_true.mp hpossessed
    obtain ⟨qid, hqid⟩ := List.getElem?_of_mem hmem
    have hne : qid ≠ pid := by
      rintro rfl
      cases hp.symm.trans hqid
      simp only [Bool.and_eq_true, beq_iff_eq] at hq
      obtain rfl := Option.some.inj (htask.symm.trans hq.1)
      rw [hbefore] at haccepted
      cases haccepted
    have hkept : (s.update pid sh (.submit c') sp).At qid q := Threads.update_other hne hqid
    exact List.any_eq_true.mpr ⟨q, List.mem_of_getElem? hkept, hq⟩
  · rw [Threads.update_shared] at hafter
    simp [Pool.unfinished, hafter, hsenders, hlive, ResultSender.settled]

/-- Submissions are held back at the bound: a task is accepted only below it, and when as many
tasks wait as can, a call that waits for a slot goes on waiting. -/
structure HoldsBack (cfg : PoolConfig) (s : Pool σ R) : Prop where
  accepts : ∀ e s' t, (poolMachine σ R cfg).step s e = some s' →
    (s.shared.tasks t).accepted = false → (s'.shared.tasks t).accepted = true →
      Pool.count Pool.unfinished s < cfg.permits + (cfg.queueSlots + cfg.spare)
  waits : Pool.count Pool.waits s = cfg.queueSlots + cfg.spare →
    ∀ pid c s', s.At pid (.submit c) → c.pc.selecting = true →
      (poolMachine σ R cfg).step s (.run .step pid) = some s' →
        ∃ c', s'.At pid (.submit c') ∧ c'.pc.selecting = true

/-- With a full queue the gate has no slot to give. -/
theorem gate_full (h : (poolMachine σ R cfg).Reachable ok s) (hslots : s.slots = cfg.queueSlots)
    (hfull : Pool.count Pool.waits s = cfg.queueSlots + cfg.spare) :
    (Semaphore.pollAcquire pid s.shared.queueGate).2 = false := by
  have hqueued := s.shared.sum_queued_le s.shared.nextTaskId
  have hidle := sum_idle_le h s.shared.nextTaskId
  have hwaits := length_filter_le_sum (List.range s.shared.nextTaskId)
    fun t _ => Pool.placed_of_waits (t := t) h
  rw [List.sum_map_add] at hwaits
  have hcount : ((List.range s.shared.nextTaskId).filter fun t => Pool.waits s t).length =
      cfg.queueSlots + cfg.spare := hfull
  unfold Pool.slots at hslots
  rw [← Bool.not_eq_true]
  intro hready
  have hfree := ((Semaphore.pollAcquire_ready pid s.shared.queueGate).mp hready).1
  omega

/-- At its `select!` a call finds the token open and goes on to the gate. -/
theorem SubmitCall.run_selectToken {clone : Nat} {labels : Finset TaskLabel}
    {future : TaskFuture R} {unwound : Bool} (htoken : sh.token = false) :
    Proc.run cfg .step pid sh (.submit ⟨clone, labels, future, .selectToken t, unwound⟩) =
      some (sh, .submit ⟨clone, labels, future, .selectAcquire t, unwound⟩, none) := by
  cases hkind : cfg.kind <;>
    simp [Proc.run, submitStep, hkind, FuturePoolManager.submit, QueueProducer.send,
      FuturePoolManagerRlxd.submitInner, RlxdQueueProducer.send, SubmitCall.goto, htoken,
      Next.toProc]

/-- A call that gets no slot goes on to look at the token. -/
theorem SubmitCall.run_selectPending {clone : Nat} {labels : Finset TaskLabel}
    {future : TaskFuture R} {unwound : Bool}
    (hgate : (Semaphore.pollAcquire pid sh.queueGate).2 = false) :
    Proc.run cfg .step pid sh (.submit ⟨clone, labels, future, .selectAcquire t, unwound⟩) =
      some ({ sh with queueGate := (Semaphore.pollAcquire pid sh.queueGate).1 },
        .submit ⟨clone, labels, future, .selectToken t, unwound⟩, none) := by
  cases hkind : cfg.kind <;>
    simp [Proc.run, submitStep, hkind, FuturePoolManager.submit, QueueProducer.send,
      FuturePoolManagerRlxd.submitInner, RlxdQueueProducer.send, SubmitCall.goto, hgate,
      Next.toProc]

/-- Whoever waits for a slot while there is none goes on waiting. -/
theorem goes_on_waiting {s' : Pool σ R} {c : SubmitCall R} (htoken : s.shared.token = false)
    (hgate : (Semaphore.pollAcquire pid s.shared.queueGate).2 = false)
    (hc : s.At pid (.submit c)) (hselecting : c.pc.selecting = true)
    (hnext : (poolMachine σ R cfg).step s (.run .step pid) = some s') :
    ∃ c', s'.At pid (.submit c') ∧ c'.pc.selecting = true := by
  obtain ⟨p, sh, p', sp, hp, hrun, rfl⟩ := Program.step_run hnext
  cases hc.symm.trans hp
  have hrun : Proc.run cfg .step pid s.shared (.submit c) = some (sh, p', sp) := hrun
  obtain ⟨clone, labels, future, pc, unwound⟩ := c
  cases pc with
  | selectToken t =>
    rw [SubmitCall.run_selectToken htoken] at hrun
    cases hrun
    exact ⟨_, Threads.update_self hp, rfl⟩
  | selectAcquire t =>
    rw [SubmitCall.run_selectPending hgate] at hrun
    cases hrun
    exact ⟨_, Threads.update_self hp, rfl⟩
  | _ => cases hselecting

end Runs

/-- The backpressure bound. The accepted tasks that wait for a permit are at most the queue
capacity in the strict pool, and one more for each dispatcher in the relaxed pool; the
accepted tasks that are not finished are at most the concurrency limit more. At the bound
further submissions wait. In the strict pool the bound holds in every reachable state, and
submissions wait until the queue is closed; in the relaxed pool both hold before shutdown, in
every run in which no dispatcher that was not told to end is hit by a destructor that
panics. -/
theorem backpressure_bound (σ R : Type) [Semaphore σ]
    (concurrencyLimit queueCapacity dispatchers : Nat) (poolName : String) :
    (let cfg := PoolConfig.manager concurrencyLimit queueCapacity poolName
      ∀ s : Pool σ R, (poolMachine σ R cfg).Reachable Machine.anyStep s →
        Pool.count Pool.waits s ≤ queueCapacity ∧
          Pool.count Pool.unfinished s ≤ max concurrencyLimit 1 + queueCapacity ∧
          (s.shared.token = false → s.shared.queueClosed = false → HoldsBack cfg s)) ∧
    (let cfg := PoolConfig.rlxd concurrencyLimit queueCapacity dispatchers poolName
      ∀ s : Pool σ R, (poolMachine σ R cfg).Reachable
        (fun s e => sparesDispatchers s e = true) s → s.shared.token = false →
        Pool.count Pool.waits s ≤ max queueCapacity 1 + max dispatchers 1 ∧
          Pool.count Pool.unfinished s ≤
            max concurrencyLimit 1 + (max queueCapacity 1 + max dispatchers 1) ∧
          HoldsBack cfg s) := by
  refine ⟨fun s h => ?_, fun s h htoken => ?_⟩
  · have hmessages := (lane_bounded rfl h).2
    obtain ⟨hwaits, hunfinished⟩ := count_of_messages h hmessages
    refine ⟨hwaits, hunfinished, fun htoken hopen => ⟨?_, ?_⟩⟩
    · intro e s' t hnext hbefore hafter
      have hreach' := h.tail trivial hnext
      exact (unfinished_of_accepts h hnext hbefore hafter).trans_le
        (count_of_messages hreach' (lane_bounded rfl hreach').2).2
    · intro hfull pid c s' hc hselecting hnext
      have hslots := (lane_bounded rfl h).1 hopen
      exact goes_on_waiting htoken (gate_full h hslots hfull) hc hselecting hnext
  · have hspared : ∀ {s : Pool σ R} {b pid d}, sparesDispatchers s (.run b pid) = true →
        s.At pid (.loop d) → d.struck s.shared = true → s.shared.ending = true := by
      intro s b pid d hok hp hstruck
      simpa [sparesDispatchers, hp, hstruck] using hok
    have hslots := slots_before_shutdown hspared h htoken
    obtain ⟨hwaits, hunfinished⟩ := count_of_messages h (messages_of_slots hslots)
    refine ⟨hwaits, hunfinished, ?_, ?_⟩
    · intro e s' t hnext hbefore hafter
      obtain ⟨b, pid, c, sh, c', sp, rfl, hp, hstep, rfl, -⟩ := accepting_call hnext hbefore hafter
      have htoken' : sh.token = false := hstep.token_kept.trans htoken
      have hreach' := h.tail (by simp [sparesDispatchers, hp]) hnext
      exact (unfinished_of_accepts h hnext hbefore hafter).trans_le
        (count_of_messages hreach' (messages_of_slots
          (slots_before_shutdown hspared hreach' htoken'))).2
    · intro hfull pid c s' hc hselecting hnext
      exact goes_on_waiting htoken (gate_full h hslots hfull) hc hselecting hnext

/-- A strict pool runs one task, and another one is queued. -/
def filled : Pool FairSemaphore Nat :=
  let M := poolMachine FairSemaphore Nat (.manager 1 1 "pool")
  M.after (fun _ _ => true)
    (.call (.submit 0 ∅ .never) :: stepping (List.replicate 8 1 ++ List.replicate 9 0) ++
      .call (.submit 0 ∅ .never) :: stepping (List.replicate 8 3)) M.init

/-- A third call has come to the gate. -/
def filledAndCalled : Pool FairSemaphore Nat :=
  (poolMachine FairSemaphore Nat (.manager 1 1 "pool")).after (fun _ _ => true)
    (.call (.submit 0 ∅ .never) :: stepping (List.replicate 5 4)) filled

/-- A relaxed pool runs one task, its dispatcher waits with another one for the permit,
and a third one is queued. -/
def overfilled : Pool FairSemaphore Nat :=
  let M := poolMachine FairSemaphore Nat (.rlxd 1 1 1 "pool")
  M.after sparesDispatchers
    (.call (.submit 0 ∅ .never) :: stepping (List.replicate 11 1) ++
      .call (.submit 0 ∅ .never) :: stepping (List.replicate 11 3) ++ stepping [0, 0, 0, 0] ++
      .call (.submit 0 ∅ .never) :: stepping (List.replicate 11 4)) M.init

theorem backpressure_bound_filled :
    Pool.count Pool.waits filled ≤ 1 ∧ Pool.count Pool.unfinished filled = 2 ∧
      HoldsBack (.manager 1 1 "pool") filledAndCalled ∧
      Pool.count Pool.waits filledAndCalled = 1 ∧
      filledAndCalled.At 4 (.submit ⟨0, ∅, .never, .selectToken 2, false⟩) ∧
      Pool.count Pool.unfinished overfilled ≤ 1 + (1 + 1) := by
  have hlaw := backpressure_bound FairSemaphore Nat 1 1 1 "pool"
  have hfilled : (poolMachine FairSemaphore Nat (.manager 1 1 "pool")).Reachable Machine.anyStep
      filled := (Machine.steps_after _ _ _ _).any
  have hstrict := hlaw.1 filled hfilled
  have hcalled := hlaw.1 filledAndCalled (hfilled.trans (Machine.steps_after _ _ _ _).any)
  have hrlxd := hlaw.2 overfilled (Machine.steps_after _ _ _ _) rfl
  exact ⟨hstrict.1, by decide, hcalled.2.2 rfl (by decide), by decide, rfl, hrlxd.2.1⟩

/-- With queue capacity 1, two accepted tasks wait. -/
theorem dispatcher_waits_beyond_capacity :
    (poolMachine FairSemaphore Nat (.rlxd 1 1 1 "pool")).Reachable Machine.anyStep overfilled ∧
      overfilled.shared.token = false ∧
      Pool.count Pool.waits overfilled = 2 ∧
      Pool.count Pool.unfinished overfilled = 3 :=
  ⟨(Machine.steps_after _ _ _ _).any, rfl, by decide, by decide⟩

end FuturesOrchestra
