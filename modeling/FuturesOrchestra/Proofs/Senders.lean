import FuturesOrchestra.Proofs.Steps

/-!
# The senders of the completion queue

A completion sender is cloned from the sink when a task is spawned or found
cancelled, and travels with the process that will report the task. `senders_counted`
accounts for every one of them, so that the notification worker, which ends when
none is left, ends only when nobody has anything left to report. The worker is
started with the first registration and never again.
-/

namespace FuturesOrchestra

open Interleaving

variable {σ R : Type} {cfg : PoolConfig} {pid : Nat} {sh sh' : Shared σ R}
  {sp : Option (Proc R)}

/-! ## Who holds a sender -/

def SubmitPc.senders : SubmitPc → Nat
  | .spawn _ _ sender => sender.toNat
  | _ => 0

def LoopPc.senders : LoopPc → Nat
  | .spawn _ _ sender => sender.toNat
  | .cancelNotify .. => 1
  | _ => 0

/-- The completion senders a process holds. -/
def Proc.senders : Proc R → Nat
  | .submit c => c.pc.senders
  | .loop d => d.pc.senders
  | .wrapper w => w.sender.toNat
  | _ => 0

/-- Counts the notification workers. -/
def Proc.workers : Proc R → Nat
  | .notifier _ => 1
  | _ => 0

namespace CompletionNotifier

/-- The sender that the sink itself holds. -/
def pooled (n : CompletionNotifier) : Nat := if n.sink = .opened then 1 else 0

/-- The senders of the queue, once there is a queue. -/
def live (n : CompletionNotifier) : Nat := if n.sink = .unset then 0 else n.senders

/-- Whether the cell of the sink was set, as a weight. -/
def isSet (n : CompletionNotifier) : Nat := if n.sink = .unset then 0 else 1

theorem lookup_found (n : CompletionNotifier) : n.lookup.2 = true ↔ n.sink = .opened := by
  unfold lookup
  cases h : n.sink <;> simp

theorem lookup_closed {n : CompletionNotifier} (h : n.sink = .closed) : n.lookup.2 = false := by
  rw [lookup, h]

theorem lookup_eq (n : CompletionNotifier) :
    n.lookup.1 = { n with senders := n.senders + n.lookup.2.toNat } := by
  obtain ⟨sink, _⟩ := n
  cases sink <;> rfl

theorem lookup_sink (n : CompletionNotifier) : n.lookup.1.sink = n.sink := by
  rw [lookup_eq]

theorem live_lookup (n : CompletionNotifier) : n.lookup.1.live = n.live + n.lookup.2.toNat := by
  unfold lookup live
  cases h : n.sink <;> simp [h]

theorem pooled_lookup (n : CompletionNotifier) : n.lookup.1.pooled = n.pooled := by
  rw [pooled, pooled, lookup_sink]

theorem close_balance (n : CompletionNotifier) (h : n.pooled ≤ n.live) :
    n.close.pooled + n.live = n.pooled + n.close.live := by
  unfold close pooled live at *
  cases hs : n.sink <;> simp [hs] at h ⊢
  omega

theorem sink_send (n : CompletionNotifier) (msg : InternalCompletionMessage) :
    (n.send msg).sink = n.sink := by
  unfold send
  split <;> rfl

theorem live_send (n : CompletionNotifier) (msg : InternalCompletionMessage) :
    (n.send msg).live = n.live - 1 := by
  unfold send live
  split <;> cases hs : n.sink <;> simp

theorem live_dropSender (n : CompletionNotifier) : n.dropSender.live = n.live - 1 := by
  unfold dropSender live
  cases hs : n.sink <;> simp

end CompletionNotifier

/-- The balance of a step between the senders, those of the sink and those of the
process that runs. -/
def Shared.Rebalances (sh sh' : Shared σ R) (held held' : Nat) : Prop :=
  sh'.notifier.pooled + held' + sh.notifier.live = sh.notifier.pooled + held + sh'.notifier.live

variable [Semaphore σ]

theorem SubmitStep.senders_balance {kind : PoolKind} {c c' : SubmitCall R}
    (h : SubmitStep kind pid sh c sh' c' sp) :
    sh.Rebalances sh' c.pc.senders (c'.pc.senders + Threads.started Proc.senders sp) := by
  unfold Shared.Rebalances
  cases h with
  | lookup hkind hpc =>
    rw [Shared.lookedUp_notifier, CompletionNotifier.pooled_lookup,
      CompletionNotifier.live_lookup]
    simp [SubmitPc.senders, hpc]
    omega
  | refuse hpc | reject hpc | abandon hpc =>
    rcases hpc with hpc | hpc <;> simp [SubmitPc.senders, hpc]
  | spawn hkind hpc => simp [SubmitPc.senders, Proc.senders, hpc]
  | _ => simp [SubmitPc.senders, *]

theorem LoopStep.senders_balance {d d' : DispatcherLoop}
    (hle : sh.notifier.pooled + d.pc.senders ≤ sh.notifier.live)
    (h : LoopStep cfg pid sh d sh' d' sp) :
    sh.Rebalances sh' d.pc.senders (d'.pc.senders + Threads.started Proc.senders sp) := by
  unfold Shared.Rebalances
  cases h with
  | lookup hpc =>
    rw [Shared.lookedUp_notifier, CompletionNotifier.pooled_lookup,
      CompletionNotifier.live_lookup]
    simp [LoopPc.senders, hpc]
    omega
  | cancelLookup hpc hfound | cancelUnheard hpc hfound =>
    rw [Shared.lookedUp_notifier, CompletionNotifier.pooled_lookup,
      CompletionNotifier.live_lookup]
    simp [LoopPc.senders, hpc, hfound]
    try omega
  | @cancelNotify permit t hpc =>
    simp only [LoopPc.senders, hpc] at hle ⊢
    rw [Shared.sendCompletion_notifier, CompletionNotifier.live_send, CompletionNotifier.pooled,
      CompletionNotifier.pooled, CompletionNotifier.sink_send]
    simp
    omega
  | spawn hpc => simp [LoopPc.senders, Proc.senders, hpc]
  | exitLast hpc =>
    have hclose := sh.notifier.close_balance (by omega)
    simpa [LoopPc.senders, hpc] using hclose
  | _ => simp [LoopPc.senders, *]

theorem WrapperStep.senders_balance {w w' : Wrapper R}
    (hle : sh.notifier.pooled + w.sender.toNat ≤ sh.notifier.live)
    (h : WrapperStep cfg sh w sh' w') :
    sh.Rebalances sh' w.sender.toNat w'.sender.toNat := by
  unfold Shared.Rebalances
  cases h with
  | @notify status hpc hsender =>
    rw [hsender] at hle ⊢
    rw [Shared.sendCompletion_notifier, CompletionNotifier.live_send, CompletionNotifier.pooled,
      CompletionNotifier.pooled, CompletionNotifier.sink_send]
    simp at hle ⊢
    omega
  | unwind | unwindSent =>
    -- the sender that was captured goes unused with the wrapper
    cases hs : w.sender with
    | false => simp [Shared.hangUp]
    | true =>
      have hpooled : sh.notifier.dropSender.pooled = sh.notifier.pooled := rfl
      rw [hs] at hle
      simp [CompletionNotifier.live_dropSender, hpooled] at hle ⊢
      omega
  | _ => simp

omit [Semaphore σ] in
theorem DropStep.senders_balance {closed closed' : Bool} {pc pc' : DropPc}
    (hle : sh.notifier.pooled ≤ sh.notifier.live) (h : DropStep sh closed pc sh' closed' pc') :
    sh.Rebalances sh' 0 0 := by
  unfold Shared.Rebalances
  cases h with
  | closeSink | releaseLast =>
    have hclose := sh.notifier.close_balance hle
    simpa using hclose
  | _ => rfl

omit [Semaphore σ] in
theorem Proc.CallStep.senders_balance {b : Signal} {p p' : Proc R}
    (hle : sh.notifier.pooled ≤ sh.notifier.live) (h : Proc.CallStep cfg b pid sh p sh' p' sp) :
    sh.Rebalances sh' p.senders (p'.senders + Threads.started Proc.senders sp) := by
  cases h with
  | shutdown hstep =>
    cases hstep with
    | closeSink =>
      have hclose := sh.notifier.close_balance hle
      simpa [Shared.Rebalances, Proc.senders] using hclose
    | dropSelf _ hdrop => exact hdrop.senders_balance hle
    | _ => rfl
  | drop _ hdrop => exact hdrop.senders_balance hle
  | labelCancel hstep => cases hstep <;> rfl
  | addHandler hstep =>
    cases hstep with
    | init _ hsink =>
      simp [Shared.Rebalances, Proc.senders, CompletionNotifier.pooled, CompletionNotifier.live,
        hsink]
    | _ => rfl
  | notifier hstep => cases hstep <;> rfl

/-- Every step keeps the balance of the senders. -/
theorem Proc.senders_balance {b : Signal} {p p' : Proc R}
    (hle : sh.notifier.pooled + p.senders ≤ sh.notifier.live)
    (h : Proc.run cfg b pid sh p = some (sh', p', sp)) :
    sh.Rebalances sh' p.senders (p'.senders + Threads.started Proc.senders sp) := by
  rcases Proc.split_of_run h with ⟨c, c', rfl, rfl, hstep⟩ | ⟨d, d', rfl, rfl, hstep⟩ |
    ⟨w, w', rfl, rfl, hstep, rfl⟩ | hstep
  · exact hstep.senders_balance
  · exact hstep.senders_balance hle
  · exact hstep.senders_balance hle
  · exact hstep.senders_balance (by omega)

omit [Semaphore σ] in
theorem Call.notifier_of_enter {c : Call R} (h : c.enter sh = some (sh', sp)) :
    sh'.notifier = sh.notifier ∧ Threads.started Proc.senders sp = 0 ∧
      Threads.started Proc.workers sp = 0 := by
  revert h
  fun_cases Call.enter sh c
  all_goals rintro ⟨⟩
  all_goals exact ⟨rfl, rfl, rfl⟩

/-- The senders of the completion queue are those of the sink and of the processes. -/
theorem senders_counted {ok : Pool σ R → PoolEvent R → Prop} {s : Pool σ R}
    (h : (poolMachine σ R cfg).Reachable ok s) :
    s.shared.notifier.pooled + s.tally Proc.senders = s.shared.notifier.live := by
  refine Program.conserved (f := fun sh => sh.notifier.pooled) (k := fun sh => sh.notifier.live)
    ?_ ?_ h ?_
  · intro b pid sh p sh' p' sp hle hrun
    have hbalance := Proc.senders_balance hle hrun
    unfold Shared.Rebalances at hbalance
    omega
  · intro c sh sh' sp hcall
    obtain ⟨hnotifier, hstarted, -⟩ := Call.notifier_of_enter hcall
    rw [hnotifier, hstarted]
    omega
  · show 0 + (Pool.new σ R cfg).tally Proc.senders = 0
    rw [Pool.tally_new (g := Proc.senders) fun _ => rfl]

/-! ## The sink -/

/-- The next step of the process closes the sink, if it is open. -/
def Proc.closesSink : Proc R → Bool
  | .shutdown c => c.pc == .closeSink || c.pc == .dropSelf .closeSink
  | .drop c => c.pc == .closeSink
  | _ => false

/-- What a step does to the sink: nothing, the first registration opens it, a
shutdown or the last drop closes it, or it is dropped by the last of its owners. -/
inductive SinkStep (sh sh' : Shared σ R) (p : Proc R) (sp : Option (Proc R)) : Prop
  | kept (hsink : sh'.notifier.sink = sh.notifier.sink) (hsp : Threads.started Proc.workers sp = 0)
  | opened {c} (hp : p = .addHandler c) (hpc : c.pc = .init) (hunset : sh.notifier.sink = .unset)
      (hsink : sh'.notifier.sink = .opened) (hsp : sp = some (.notifier ⟨false, .recv⟩))
  | closed (hp : p.closesSink = true) (hopened : sh.notifier.sink = .opened)
      (hsink : sh'.notifier.sink = .closed) (hsp : sp = none)
  | dropped (hguards : sh'.guards = 0) (hlanes : sh'.queueClosed = true)
      (hopened : sh.notifier.sink = .opened) (hsink : sh'.notifier.sink = .closed)
      (hsp : sp = none)

namespace SinkStep

variable {p p' : Proc R}

omit [Semaphore σ] in
theorem close (hp : p.closesSink = true) (hsink : sh'.notifier = sh.notifier.close) :
    SinkStep sh sh' p none := by
  cases hs : sh.notifier.sink with
  | opened => exact .closed hp hs (by simp [hsink, CompletionNotifier.close, hs]) rfl
  | unset | closed => exact .kept (by simp [hsink, CompletionNotifier.close, hs]) rfl

omit [Semaphore σ] in
theorem drop (hguards : sh'.guards = 0) (hlanes : sh'.queueClosed = true)
    (hsink : sh'.notifier = sh.notifier.close) : SinkStep sh sh' p none := by
  cases hs : sh.notifier.sink with
  | opened =>
    exact .dropped hguards hlanes hs (by simp [hsink, CompletionNotifier.close, hs]) rfl
  | unset | closed => exact .kept (by simp [hsink, CompletionNotifier.close, hs]) rfl

theorem submit {kind : PoolKind} {c c' : SubmitCall R} (h : SubmitStep kind pid sh c sh' c' sp) :
    SinkStep sh sh' p sp := by
  cases h with
  | lookup => exact .kept (CompletionNotifier.lookup_sink _) rfl
  | _ => exact .kept rfl rfl

theorem loop {d d' : DispatcherLoop} (h : LoopStep cfg pid sh d sh' d' sp) :
    SinkStep sh sh' p sp := by
  cases h with
  | lookup | cancelLookup | cancelUnheard =>
    exact .kept (CompletionNotifier.lookup_sink _) rfl
  | cancelNotify => exact .kept (CompletionNotifier.sink_send _ _) rfl
  | exitLast _ _ hguards hclosed => exact drop hguards hclosed rfl
  | _ => exact .kept rfl rfl

theorem wrapper {w w' : Wrapper R} (h : WrapperStep cfg sh w sh' w') :
    SinkStep sh sh' p none := by
  cases h with
  | notify => exact .kept (CompletionNotifier.sink_send _ _) rfl
  | unwind | unwindSent =>
    refine .kept ?_ rfl
    rw [Shared.hangUp_notifier]
    split <;> rfl
  | _ => exact .kept rfl rfl

omit [Semaphore σ] in
theorem call {b : Signal} (h : Proc.CallStep cfg b pid sh p sh' p' sp) : SinkStep sh sh' p sp := by
  cases h with
  | shutdown hstep =>
    cases hstep with
    | closeSink hpc => exact close (by simp [Proc.closesSink, hpc]) rfl
    | dropSelf hpc hdrop =>
      cases hdrop with
      | closeSink => exact close (by simp [Proc.closesSink, hpc]) rfl
      | releaseLast hguards hclosed => exact drop hguards hclosed rfl
      | _ => exact .kept rfl rfl
    | _ => exact .kept rfl rfl
  | drop hpc hdrop =>
    cases hdrop with
    | closeSink => exact close (by simp [Proc.closesSink, hpc]) rfl
    | releaseLast hguards hclosed => exact drop hguards hclosed rfl
    | _ => exact .kept rfl rfl
  | labelCancel hstep => cases hstep <;> exact .kept rfl rfl
  | addHandler hstep =>
    cases hstep with
    | init hpc hsink => exact .opened rfl hpc hsink rfl rfl
    | _ => exact .kept rfl rfl
  | notifier hstep => cases hstep <;> exact .kept rfl rfl

end SinkStep

theorem Proc.sink_of_run {b : Signal} {p p' : Proc R}
    (h : Proc.run cfg b pid sh p = some (sh', p', sp)) : SinkStep sh sh' p sp := by
  rcases Proc.split_of_run h with ⟨c, c', rfl, rfl, hstep⟩ | ⟨d, d', rfl, rfl, hstep⟩ |
    ⟨w, w', rfl, rfl, hstep, rfl⟩ | hstep
  · exact .submit hstep
  · exact .loop hstep
  · exact .wrapper hstep
  · exact .call hstep

/-- A set cell stays set, and a closed sink stays closed. -/
structure CompletionSink.Advances (a b : CompletionSink) : Prop where
  set : a ≠ .unset → b ≠ .unset
  closed : a = .closed → b = .closed

theorem CompletionSink.Advances.refl (a : CompletionSink) : a.Advances a := ⟨id, id⟩

omit [Semaphore σ] in
theorem SinkStep.advances {p : Proc R} (h : SinkStep sh sh' p sp) :
    sh.notifier.sink.Advances sh'.notifier.sink := by
  cases h with
  | kept hsink => exact hsink ▸ .refl _
  | opened _ _ hunset => exact ⟨fun h => absurd hunset h, fun h => by simp [hunset] at h⟩
  | closed _ _ hsink | dropped _ _ _ hsink => exact ⟨fun _ => by simp [hsink], fun _ => hsink⟩

theorem Pool.sink_advances {s s' : Pool σ R} {ok : Pool σ R → PoolEvent R → Prop}
    (h : (poolMachine σ R cfg).Steps ok s s') :
    s.shared.notifier.sink.Advances s'.shared.notifier.sink := by
  refine Program.induct (I := fun s' =>
    s.shared.notifier.sink.Advances s'.shared.notifier.sink) ?_ ?_ h (.refl _)
  · intro s' b pid p sh p' sp hs _ _ hrun
    have hnext := (Proc.sink_of_run hrun).advances
    exact ⟨fun h => hnext.set (hs.set h), fun h => hnext.closed (hs.closed h)⟩
  · intro s' c sh sp hs _ hcall
    rw [Threads.spawn_shared, (Call.notifier_of_enter hcall).1]
    exact hs

/-! ## The worker -/

theorem Proc.workers_kept {b : Signal} {p p' : Proc R}
    (h : Proc.run cfg b pid sh p = some (sh', p', sp)) : p'.workers = p.workers := by
  rcases Proc.split_of_run h with ⟨c, c', rfl, rfl, -⟩ | ⟨d, d', rfl, rfl, -⟩ |
    ⟨w, w', rfl, rfl, -, -⟩ | hstep
  · rfl
  · rfl
  · rfl
  · cases hstep <;> rfl

/-- The worker is started once, with the first registration. -/
theorem workers_counted {ok : Pool σ R → PoolEvent R → Prop} {s : Pool σ R}
    (h : (poolMachine σ R cfg).Reachable ok s) :
    s.tally Proc.workers = s.shared.notifier.isSet := by
  have hbalance : 0 + s.tally Proc.workers = s.shared.notifier.isSet := by
    refine Program.conserved (f := fun _ => 0) (k := fun sh => sh.notifier.isSet) ?_ ?_ h ?_
    · intro b pid sh p sh' p' sp _ hrun
      rw [Proc.workers_kept hrun]
      cases Proc.sink_of_run hrun with
      | kept hsink hsp => simp [CompletionNotifier.isSet, hsink, hsp]
      | opened _ _ hunset hsink hsp =>
        simp [CompletionNotifier.isSet, hunset, hsink, hsp, Proc.workers, Nat.add_comm]
      | closed _ hopened hsink hsp | dropped _ _ hopened hsink hsp =>
        simp [CompletionNotifier.isSet, hopened, hsink, hsp]
    · intro c sh sh' sp hcall
      obtain ⟨hnotifier, -, hstarted⟩ := Call.notifier_of_enter hcall
      rw [hnotifier, hstarted]
    · show 0 + (Pool.new σ R cfg).tally Proc.workers = 0
      rw [Pool.tally_new (g := Proc.workers) fun _ => rfl]
  omega

section Worker

variable {ok : Pool σ R → PoolEvent R → Prop} {s : Pool σ R} {qid : Nat} {n m : NotifierLoop}

theorem worker_unique (h : (poolMachine σ R cfg).Reachable ok s) (hn : s.At pid (.notifier n))
    (hm : s.At qid (.notifier m)) : pid = qid := by
  by_contra hne
  have hcount := workers_counted h
  have hle := Threads.add_le_tally (g := Proc.workers) hne hn hm
  have hone : s.shared.notifier.isSet ≤ 1 := by
    unfold CompletionNotifier.isSet
    split <;> omega
  simp only [Proc.workers] at hle
  omega

theorem worker_sink (h : (poolMachine σ R cfg).Reachable ok s) (hn : s.At pid (.notifier n)) :
    s.shared.notifier.sink ≠ .unset := by
  intro hunset
  have hcount := workers_counted h
  have hle := Threads.le_tally (g := Proc.workers) hn
  simp only [Proc.workers, CompletionNotifier.isSet, hunset, if_true] at hle hcount
  omega

theorem worker_present (h : (poolMachine σ R cfg).Reachable ok s)
    (hsink : s.shared.notifier.sink ≠ .unset) : ∃ pid n, s.At pid (.notifier n) := by
  by_contra hnone
  have hcount := workers_counted h
  have hzero : s.tally Proc.workers = 0 := by
    refine Threads.tally_eq_zero fun pid p hp => ?_
    cases p with
    | notifier n => exact absurd ⟨pid, n, hp⟩ hnone
    | _ => rfl
  simp only [CompletionNotifier.isSet, hsink, if_false] at hcount
  omega

end Worker

end FuturesOrchestra
