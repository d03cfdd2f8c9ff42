import FuturesOrchestra.Proofs.Permits

/-!
# Queue slots

A slot of the bounded queue is a free permit of the queue gate, a queued message,
or held by a `submit` call between the gate and the channel. `slots` counts them
all. A step keeps the count, but for one: a push into a lane whose receiver is
gone releases the slot of the call twice, once with the message it drops and once
with its own guard, although the guard's release is disarmed on success.
-/

namespace FuturesOrchestra

open Interleaving Semaphore

variable {σ R : Type} {cfg : PoolConfig} {pid : Nat} {sh sh' : Shared σ R}
  {sp : Option (Proc R)}

/-- The messages queued in the lanes. -/
def Shared.messages (sh : Shared σ R) : Nat := (sh.lanes.map (·.items.length)).sum

/-- The queue slots a `submit` call holds. -/
def SubmitPc.slots : SubmitPc → Nat
  | .sendRoute _ | .push .. => 1
  | _ => 0

def Proc.slots : Proc R → Nat
  | .submit c => c.pc.slots
  | _ => 0

theorem Proc.slots_bystander {p : Proc R} (h : p.bystander) : p.slots = 0 := by
  cases p <;> first | rfl | exact h.elim

/-- Whether the next step of the call pushes into a lane whose receiver is gone. -/
def SubmitCall.pushesClosed (sh : Shared σ R) (c : SubmitCall R) : Bool :=
  match c.pc with
  | .push _ lane => (sh.lanes[lane]?).any fun l => !l.receiver
  | _ => false

def Proc.pushesClosed (sh : Shared σ R) : Proc R → Bool
  | .submit c => c.pushesClosed sh
  | _ => false

theorem Proc.pushesClosed_bystander {p : Proc R} (h : p.bystander) :
    p.pushesClosed sh = false := by
  cases p <;> first | rfl | exact h.elim

theorem Shared.messages_setLane {i : Nat} {l : Lane} (l' : Lane) (h : sh.lanes[i]? = some l) :
    (sh.setLane i l').messages + l.items.length = sh.messages + l'.items.length :=
  Threads.sum_map_set l' (fun l => l.items.length) h

theorem Shared.messages_eq (h : sh'.lanes = sh.lanes) : sh'.messages = sh.messages := by
  rw [messages, messages, h]

variable [Semaphore σ]

theorem SubmitStep.slots_kept {kind : PoolKind} {c c' : SubmitCall R}
    (h : SubmitStep kind pid sh c sh' c' sp) :
    permits sh'.queueGate + sh'.messages + c'.pc.slots =
      permits sh.queueGate + sh.messages + c.pc.slots + (c.pushesClosed sh).toNat := by
  cases h with
  | selectAcquired hkind hpc hgate | selectAcquiredRlxd hkind hpc hgate =>
    have hacquired := permits_acquired hgate
    simp [SubmitPc.slots, SubmitCall.pushesClosed, Shared.messages, hpc]
    omega
  | selectPending hpc hgate =>
    have hpending := permits_pending hgate
    simp [SubmitPc.slots, SubmitCall.pushesClosed, Shared.messages, hpc, hpending]
  | @push t lane l hpc hlane hrecv =>
    have hmessages := Shared.messages_setLane { l with items := l.items ++ [t] } hlane
    simp [SubmitPc.slots, SubmitCall.pushesClosed, Shared.messages, hpc, hlane, hrecv]
      at hmessages ⊢
    omega
  | pushFails hpc hlane hrecv =>
    simp [SubmitPc.slots, SubmitCall.pushesClosed, Shared.messages, hpc, hlane, hrecv]
    omega
  | refuse hpc | reject hpc | abandon hpc =>
    rcases hpc with hpc | hpc <;>
      simp [SubmitPc.slots, SubmitCall.pushesClosed, Shared.messages, hpc]
  | _ => simp [SubmitPc.slots, SubmitCall.pushesClosed, Shared.messages, *]

theorem LoopStep.slots_kept {d d' : DispatcherLoop} (h : LoopStep cfg pid sh d sh' d' sp) :
    permits sh'.queueGate + sh'.messages = permits sh.queueGate + sh.messages := by
  cases h with
  | @recv t items receiver done _ _ hlane | @recvRlxd t items receiver done _ _ hlane
  | @recvDiscard t items receiver done _ _ hlane | @drain t items receiver done _ hlane =>
    have hmessages := Shared.messages_setLane ⟨items, receiver, done⟩ hlane
    simp [Shared.messages] at hmessages ⊢
    omega
  | @exitReceiver l _ hlane | @exitLast l _ hlane =>
    have hmessages := Shared.messages_setLane { l with receiver := false } hlane
    simp [Shared.messages] at hmessages ⊢
    omega
  | @drained receiver done _ hlane =>
    have hmessages := Shared.messages_setLane ⟨[], receiver, true⟩ hlane
    simp [Shared.messages] at hmessages ⊢
    omega
  | _ => simp [Shared.messages, *]

theorem WrapperStep.slots_kept {w w' : Wrapper R} (h : WrapperStep cfg sh w sh' w') :
    permits sh'.queueGate + sh'.messages = permits sh.queueGate + sh.messages := by
  cases h <;> simp [Shared.messages]

/-! ## Conservation -/

/-- All queue slots there are: free, in the lanes, and held by `submit` calls. -/
def Pool.slots (s : Pool σ R) : Nat :=
  permits s.shared.queueGate + s.shared.messages + s.tally Proc.slots

/-- The event is not a push into a lane whose receiver is gone. -/
def pushesOpen (s : Pool σ R) : PoolEvent R → Bool
  | .run _ pid => (s.procs[pid]?).all fun p => !p.pushesClosed s.shared
  | .call _ => true

/-- A step keeps the number of slots, and a push into a dead lane adds one. -/
theorem Pool.slots_step {s s' : Pool σ R} {a : PoolEvent R}
    (h : (poolMachine σ R cfg).step s a = some s') :
    s'.slots = s.slots + (!pushesOpen s a).toNat := by
  cases a with
  | run b pid =>
    obtain ⟨p, sh, p', sp, hp, hrun, rfl⟩ := Program.step_run h
    have htally := Threads.tally_update Proc.slots sh p' sp hp
    simp only [Pool.slots, pushesOpen, hp, Option.all_some, Bool.not_not, Threads.update_shared]
    cases Proc.step_of_run hrun with
    | submit hstep =>
      have hkept := hstep.slots_kept
      have hstarted : Threads.started Proc.slots sp = 0 := by
        cases hstep <;> rfl
      simp only [Proc.slots, Proc.pushesClosed] at htally ⊢
      omega
    | loop hstep =>
      have hkept := hstep.slots_kept
      have hstarted : Threads.started Proc.slots sp = 0 := by
        cases hstep <;> rfl
      simp only [Proc.slots, Proc.pushesClosed, Bool.toNat_false] at htally ⊢
      omega
    | wrapper hstep =>
      have hkept := hstep.slots_kept
      simp only [Proc.slots, Proc.pushesClosed, Bool.toNat_false, Threads.started_none] at htally ⊢
      omega
    | bystander hby hby' hstep =>
      have hstarted : Threads.started Proc.slots sp = 0 := by
        cases sp with
        | none => rfl
        | some q => exact Proc.slots_bystander (hstep.2 q rfl)
      rw [Proc.slots_bystander hby, Proc.slots_bystander hby'] at htally
      rw [hstep.1.queueGate, Shared.messages_eq hstep.1.lanes, Proc.pushesClosed_bystander hby,
        Bool.toNat_false]
      omega
  | call c =>
    obtain ⟨sh, sp, hcall, rfl⟩ := Program.step_call h
    obtain ⟨hquiet, hfresh⟩ := Call.enter_quiet hcall
    have htally := Threads.tally_spawn Proc.slots s sh sp
    have hstarted : Threads.started Proc.slots sp = 0 := by
      cases sp with
      | none => rfl
      | some q =>
        cases hfresh q rfl with
        | bystander hby => exact Proc.slots_bystander hby
        | submit => rfl
    simp only [Pool.slots, pushesOpen, Threads.spawn_shared, hquiet.queueGate,
      Shared.messages_eq hquiet.lanes, Bool.not_true, Bool.toNat_false]
    omega

theorem Pool.slots_new : (Pool.new σ R cfg).slots = cfg.queueSlots := by
  have htally : (Pool.new σ R cfg).tally Proc.slots = 0 := Pool.tally_new fun _ => rfl
  have hmessages : (Pool.new σ R cfg).shared.messages = 0 := by
    simp [Pool.new, Shared.new, Shared.messages]
  rw [Pool.slots, htally, hmessages]
  exact permits_new _

theorem slots_conserved {s : Pool σ R}
    (h : (poolMachine σ R cfg).Reachable (fun s a => pushesOpen s a = true) s) :
    s.slots = cfg.queueSlots := by
  refine h.invariant (I := fun s => s.slots = cfg.queueSlots) ?_ Pool.slots_new
  intro s a s' hs hok hstep
  rw [Pool.slots_step hstep, hs, hok]
  rfl

/-! ## The waiters of the gate -/

/-- The call waits for a slot. -/
def SubmitPc.selecting : SubmitPc → Bool
  | .selectToken _ | .selectAcquire _ => true
  | _ => false

/-- Who waits at the queue gate after a step of a `submit` call: the call itself
while it is in its `select!`, and whoever else waited before. -/
theorem SubmitStep.waiters_kept {kind : PoolKind} {c c' : SubmitCall R}
    (hnodup : (waiters sh.queueGate).Nodup)
    (hself : pid ∈ waiters sh.queueGate → c.pc.selecting = true)
    (h : SubmitStep kind pid sh c sh' c' sp) :
    (waiters sh'.queueGate).Nodup ∧ ∀ w ∈ waiters sh'.queueGate,
      (w = pid ∧ c'.pc.selecting = true) ∨ (w ≠ pid ∧ w ∈ waiters sh.queueGate) := by
  have hleft : ∀ w ∈ (waiters sh.queueGate).erase pid, w ≠ pid ∧ w ∈ waiters sh.queueGate :=
    fun w hw => (hnodup.mem_erase_iff).mp hw
  cases h with
  | selectCancelled hpc | abandon hpc =>
    refine ⟨by simpa using hnodup.erase pid, fun w hw => .inr (hleft w (by simpa using hw))⟩
  | selectAcquired hkind hpc hgate | selectAcquiredRlxd hkind hpc hgate =>
    have htaken := pollAcquire_taken pid sh.queueGate
    rw [hgate] at htaken
    have hwaiters := (htaken rfl).2
    simp only at hwaiters ⊢
    rw [hwaiters]
    exact ⟨hnodup.erase pid, fun w hw => .inr (hleft w hw)⟩
  | selectPending hpc hgate =>
    have hpending := pollAcquire_pending pid sh.queueGate
    rw [hgate] at hpending
    have hwaiters := (hpending rfl).2
    simp only at hwaiters ⊢
    rw [hwaiters]
    split
    · refine ⟨hnodup, fun w hw => ?_⟩
      by_cases hwp : w = pid
      · exact .inl ⟨hwp, rfl⟩
      · exact .inr ⟨hwp, hw⟩
    · next hnew =>
      refine ⟨by simpa using List.Nodup.concat hnew hnodup, fun w hw => ?_⟩
      by_cases hwp : w = pid
      · exact .inl ⟨hwp, rfl⟩
      · exact .inr ⟨hwp, by simpa [hwp] using hw⟩
  | selectToken hpc =>
    refine ⟨hnodup, fun w hw => ?_⟩
    by_cases hwp : w = pid
    · exact .inl ⟨hwp, rfl⟩
    · exact .inr ⟨hwp, hw⟩
  | refuse hpc | reject hpc =>
    refine ⟨by simpa using hnodup, fun w hw => .inr ⟨?_, by simpa using hw⟩⟩
    rintro rfl
    have hsel := hself (by simpa using hw)
    rcases hpc with hpc | hpc <;> simp [SubmitPc.selecting, hpc] at hsel
  | _ =>
    refine ⟨by simpa using hnodup, fun w hw => .inr ⟨?_, by simpa using hw⟩⟩
    rintro rfl
    have hsel := hself (by simpa using hw)
    simp [SubmitPc.selecting, *] at hsel

/-- Nobody waits at the queue gate but `submit` calls in their `select!`. -/
structure SlotWaiters (s : Pool σ R) : Prop where
  nodup : (waiters s.shared.queueGate).Nodup
  selecting : ∀ w ∈ waiters s.shared.queueGate, ∃ c : SubmitCall R,
    s.procs[w]? = some (.submit c) ∧ c.pc.selecting = true

theorem LoopStep.queueGate_waiters {d d' : DispatcherLoop}
    (h : LoopStep cfg pid sh d sh' d' sp) : waiters sh'.queueGate = waiters sh.queueGate := by
  cases h <;> simp

theorem WrapperStep.queueGate_waiters {w w' : Wrapper R} (h : WrapperStep cfg sh w sh' w') :
    waiters sh'.queueGate = waiters sh.queueGate := by
  cases h <;> simp

theorem SlotWaiters.update_other {s : Pool σ R} {p p' : Proc R} (hs : SlotWaiters s)
    (hp : s.procs[pid]? = some p) (hsubmit : ∀ c, p ≠ .submit c)
    (hwaiters : waiters sh'.queueGate = waiters s.shared.queueGate) :
    SlotWaiters (s.update pid sh' p' sp) := by
  refine ⟨by simpa [hwaiters] using hs.nodup, fun w hw => ?_⟩
  obtain ⟨c, hc, hsel⟩ := hs.selecting w (by simpa [hwaiters] using hw)
  have hne : w ≠ pid := by
    rintro rfl
    rw [hp] at hc
    exact hsubmit c (Option.some.inj hc)
  exact ⟨c, Threads.update_other hne hc, hsel⟩

theorem slotWaiters {ok : Pool σ R → PoolEvent R → Prop} {s : Pool σ R}
    (h : (poolMachine σ R cfg).Reachable ok s) : SlotWaiters s := by
  refine Pool.induct (I := SlotWaiters) .refl ?_ ?_ h ?_
  · intro s b pid p sh p' sp _ hs _ hp hstep
    cases hstep with
    | @submit c _ c' _ hstep =>
      have hself : pid ∈ waiters s.shared.queueGate → c.pc.selecting = true := by
        intro hw
        obtain ⟨c₁, hc₁, hsel⟩ := hs.selecting pid hw
        obtain rfl : c = c₁ := by simpa [hp] using hc₁
        exact hsel
      obtain ⟨hnodup, hkept⟩ := hstep.waiters_kept hs.nodup hself
      refine ⟨hnodup, fun w hw => ?_⟩
      rcases hkept w hw with ⟨rfl, hsel⟩ | ⟨hne, hold⟩
      · exact ⟨c', Threads.update_self hp, hsel⟩
      · obtain ⟨c₁, hc₁, hsel⟩ := hs.selecting w hold
        exact ⟨c₁, Threads.update_other hne hc₁, hsel⟩
    | loop hstep => exact hs.update_other hp (by rintro c ⟨⟩) hstep.queueGate_waiters
    | wrapper hstep => exact hs.update_other hp (by rintro c ⟨⟩) hstep.queueGate_waiters
    | bystander hby _ hstep =>
      refine hs.update_other hp ?_ (by rw [hstep.1.queueGate])
      rintro c rfl
      exact hby
  · intro s c sh sp _ hs _ hquiet _
    refine ⟨by simpa [hquiet.queueGate] using hs.nodup, fun w hw => ?_⟩
    obtain ⟨c, hc, hsel⟩ := hs.selecting w (by simpa [hquiet.queueGate] using hw)
    exact ⟨c, Threads.spawn_other hc, hsel⟩
  · have hnone : waiters (Pool.new σ R cfg).shared.queueGate = [] := waiters_new _
    exact ⟨by simp [poolMachine, Program.machine, hnone],
      by simp [poolMachine, Program.machine, hnone]⟩

/-! ## The law of the queue -/

/-- What the two producers promise of a state: every slot is accounted for, so
that neither the free slots nor the messages exceed the capacity, and only calls
that are still in their `select!` wait for one. -/
structure SlotLaw (cfg : PoolConfig) (s : Pool σ R) : Prop where
  conserved : permits s.shared.queueGate + s.shared.messages + s.tally Proc.slots = cfg.queueSlots
  free_le : permits s.shared.queueGate ≤ cfg.queueSlots
  messages_le : s.shared.messages ≤ cfg.queueSlots
  waiting : ∀ w ∈ waiters s.shared.queueGate, ∃ c : SubmitCall R,
    s.procs[w]? = some (.submit c) ∧ c.pc.selecting = true

/-- The call has returned an error or was dropped. -/
def SubmitPc.failed : SubmitPc → Bool
  | .returned (.error _) | .abandoned => true
  | _ => false

/-- A call that fails holds no slot and gives none back, unless it pushes into a
dead lane. -/
theorem SubmitStep.failed_slots {kind : PoolKind} {c c' : SubmitCall R}
    (h : SubmitStep kind pid sh c sh' c' sp) (hopen : c.pushesClosed sh = false)
    (hfailed : c'.pc.failed = true) :
    c.pc.slots = 0 ∧ permits sh'.queueGate = permits sh.queueGate := by
  cases h with
  | refuse hpc | reject hpc | abandon hpc =>
    rcases hpc with hpc | hpc <;> simp [SubmitPc.slots, hpc]
  | selectCancelled hpc => simp [SubmitPc.slots, hpc]
  | pushFails hpc hlane hrecv => simp [SubmitCall.pushesClosed, hpc, hlane, hrecv] at hopen
  | _ => simp [SubmitPc.failed] at hfailed

/-- Queue slots are conserved exactly as long as no call pushes into a lane whose
receiver is gone: in every run without such a push the law holds, a call that
fails leaves the gate as it was, and a step keeps the slots if and only if it is
no such push. -/
theorem queue_slots_conserved_iff (σ R : Type) [Semaphore σ] (cfg : PoolConfig) (s : Pool σ R)
    (h : (poolMachine σ R cfg).Reachable (fun s a => pushesOpen s a = true) s) :
    SlotLaw cfg s ∧
    (∀ a s', (poolMachine σ R cfg).step s a = some s' →
      (s'.slots = cfg.queueSlots ↔ pushesOpen s a = true)) ∧
    ∀ b pid c sh c' sp, s.procs[pid]? = some (.submit c) →
      Proc.run cfg b pid s.shared (.submit c) = some (sh, .submit c', sp) →
      pushesOpen s (.run b pid) = true → c'.pc.failed = true →
      c.pc.slots = 0 ∧ permits sh.queueGate = permits s.shared.queueGate := by
  have hslots := slots_conserved h
  refine ⟨?_, fun a s' hstep => ?_, ?_⟩
  · have hle := hslots
    unfold Pool.slots at hle
    exact ⟨hle, by omega, by omega, (slotWaiters h).selecting⟩
  · rw [Pool.slots_step hstep, hslots]
    cases pushesOpen s a <;> simp
  · intro b pid c sh c' sp hp hrun hopen hfailed
    cases Proc.step_of_run hrun with
    | submit hstep =>
      refine hstep.failed_slots ?_ hfailed
      simpa [pushesOpen, hp, Proc.pushesClosed] using hopen
    | bystander hby => exact hby.elim

/-- A submit call of the strict pool that is still waiting when the pool is shut
down on another handle. -/
def waitingAtShutdown : Pool FairSemaphore Nat :=
  let M := poolMachine FairSemaphore Nat (.manager 1 1 "pool")
  M.after pushesOpen
    (.call (.submit 0 ∅ .never) :: stepping [1, 1, 1, 1, 1] ++
      .call (.clone 0) :: .call (.shutdown 1 .graceful) :: stepping [2, 2, 1]) M.init

/-- The call leaves its `select!` through the token and gives nothing back. -/
theorem queue_slots_conserved_iff_waiting :
    SlotLaw (.manager 1 1 "pool") waitingAtShutdown ∧
      permits waitingAtShutdown.shared.queueGate = 1 :=
  ⟨(queue_slots_conserved_iff FairSemaphore Nat _ _ (Machine.steps_after _ _ _ _)).1, by decide⟩

/-- The same with a call that has its slot already when the dispatcher loop leaves
and drops the receiver. -/
def pushedAfterShutdown : Pool FairSemaphore Nat :=
  let M := poolMachine FairSemaphore Nat (.manager 1 1 "pool")
  M.after (fun _ _ => true)
    (.call (.submit 0 ∅ .never) :: stepping [1, 1, 1, 1, 1, 1, 1] ++
      .call (.clone 0) :: .call (.shutdown 1 .graceful) :: stepping [2, 2, 0, 0, 1]) M.init

/-- The push fails and releases the slot twice: a queue of capacity 1 ends up
with two free slots. -/
theorem pushed_after_shutdown_releases_twice :
    (poolMachine FairSemaphore Nat (.manager 1 1 "pool")).Reachable Machine.anyStep
        pushedAfterShutdown ∧
      permits pushedAfterShutdown.shared.queueGate + pushedAfterShutdown.shared.messages +
        pushedAfterShutdown.tally Proc.slots = 2 ∧
      (PoolConfig.manager 1 1 "pool").queueSlots = 1 :=
  ⟨(Machine.steps_after _ _ _ _).any, by decide, rfl⟩

end FuturesOrchestra
