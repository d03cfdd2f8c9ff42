import FuturesOrchestra.Proofs.Hearing

/-!
# What is told

A heard task that has got a result was reported once, with the status of the result,
or a process is about to report it. Every handler that was registered before that is
called with the message once, and none that was registered after the worker has taken
it.
-/

namespace FuturesOrchestra

open Interleaving

variable {σ R : Type} [Semaphore σ] {cfg : PoolConfig} {pid t h k : Nat} {sh sh' : Shared σ R}
  {sp : Option (Proc R)} {p p' : Proc R}

section Runs

variable {ok : Pool σ R → PoolEvent R → Prop} {s s' : Pool σ R}

/-! ## What becomes of the report -/

/-- The message that reports task `t` with result `r`. -/
def PoolConfig.report (cfg : PoolConfig) (t : Nat) (r : Except PoolError R) :
    InternalCompletionMessage :=
  ⟨cfg.poolName, t, .ofResult r⟩

/-- A task that was reported has got a result. -/
theorem used_of_message (hreach : (poolMachine σ R cfg).Reachable ok s)
    (hmsg : s.shared.messagesFor t ≠ []) : ∃ r, (s.shared.tasks t).sender = .used r := by
  obtain ⟨msg, hmem⟩ := List.exists_mem_of_ne_nil _ hmsg
  obtain ⟨hsent, hcore⟩ := List.mem_filter.mp hmem
  obtain rfl : msg.core = t := beq_iff_eq.mp hcore
  obtain ⟨r, hused, -⟩ := ((reported hreach).sent msg hsent).2
  exact ⟨r, hused⟩

/-- A task without a result was not reported. -/
theorem unreported_of_unused (hreach : (poolMachine σ R cfg).Reachable ok s)
    (hunused : ∀ r, (s.shared.tasks t).sender ≠ .used r) : s.shared.messagesFor t = [] := by
  by_contra hsome
  obtain ⟨r, hused⟩ := used_of_message hreach hsome
  exact hunused r hused

/-- A task that has been reported was reported once, with the status of its result. -/
theorem messagesFor_eq {r : Except PoolError R} (hreach : (poolMachine σ R cfg).Reachable ok s)
    (hused : (s.shared.tasks t).sender = .used r) (hpos : 0 < s.shared.reports t) :
    s.shared.messagesFor t = [cfg.report t r] := by
  have hone : s.shared.reports t = 1 := by
    have hreported := task_reported hreach t
    have hle := s.shared.created_le t
    omega
  obtain ⟨msg, hlist⟩ := List.length_eq_one_iff.mp hone
  have hmem : msg ∈ s.shared.messagesFor t := by
    rw [hlist]
    exact List.mem_singleton_self msg
  obtain ⟨hsent, hcore⟩ := List.mem_filter.mp hmem
  obtain ⟨hname, r', hused', hstatus⟩ := (reported hreach).sent msg hsent
  rw [beq_iff_eq.mp hcore, hused] at hused'
  cases hused'
  rw [hlist, PoolConfig.report, ← hname, ← beq_iff_eq.mp hcore, ← hstatus]

omit [Semaphore σ] in
/-- A process that may still report a task that has got its result is about to: it
sends the message, or it is a dispatcher that looks the sender up. -/
theorem Proc.reports_or_looksUp {r : Except PoolError R} (hlive : p.owns ≠ some t)
    (hattests : p.Attests sh) (hsenders : p.captures = some t → p.senders = 1)
    (hused : (sh.tasks t).sender = .used r) (hun : p.unreported t ≠ 0) :
    p.Reports cfg (cfg.report t r) ∨ p.looksUp = some t := by
  have hnames {o : Option Nat} (ho : names t o ≠ 0) : o = some t := by
    by_contra hne
    exact ho (if_neg hne)
  have hstatus {status : TaskCompletionStatus} (ho : sh.outcome t status) :
      status = .ofResult r := by
    obtain ⟨r', hused', rfl⟩ := ho
    rw [hused] at hused'
    cases hused'
    rfl
  have hsplit : p.seeks = some t ∨ p.captures = some t := by
    by_contra hnone
    rw [not_or] at hnone
    exact hun (by rw [Proc.unreported, names, names, if_neg hnone.1, if_neg hnone.2])
  cases p with
  | submit c =>
    refine absurd ?_ hlive
    obtain ⟨_, _, _, pc, _⟩ := c
    cases pc <;> rcases hsplit with h | h <;> first | exact h | cases h
  | loop d =>
    obtain ⟨lane, pc, panicked⟩ := d
    cases pc with
    | cancelLookup permit u =>
      rcases hsplit with h | h
      · exact .inr h
      · cases h
    | cancelNotify permit u =>
      rcases hsplit with h | h
      · cases h
      · cases h
        exact .inl (.cancelled rfl (by rw [hstatus hattests]; rfl))
    | _ =>
      refine absurd ?_ hlive
      rcases hsplit with h | h <;> first | exact h | cases h
  | wrapper w =>
    obtain ⟨task, slot, sender, pc⟩ := w
    have hc := hsplit.resolve_left (by rintro ⟨⟩)
    have hsender := hsenders hc
    cases pc with
    | settled status =>
      cases hc
      refine .inl (.wrapper rfl ?_ (by rw [hstatus hattests]; rfl))
      simpa [Proc.senders] using hsender
    | _ =>
      refine absurd ?_ hlive
      first | exact hc | cases hc
  | _ => rcases hsplit with h | h <;> cases h

/-- The task was reported with the status of its result, or a process is about to. -/
def Shared.Reporting (cfg : PoolConfig) (t : Nat) (r : Except PoolError R) (s : Pool σ R) : Prop :=
  s.shared.messagesFor t = [cfg.report t r] ∨
    s.shared.messagesFor t = [] ∧
      ∃ pid p, s.At pid p ∧ (p.Reports cfg (cfg.report t r) ∨ p.looksUp = some t)

theorem Heard.reporting {r : Except PoolError R} (hreach : (poolMachine σ R cfg).Reachable ok s)
    (hs : Heard t s) (hused : (s.shared.tasks t).sender = .used r) :
    Shared.Reporting cfg t r s := by
  rcases Nat.eq_zero_or_pos (s.shared.reports t) with hzero | hpos
  · have hlt := lt_of_settled hreach (by rw [hused]; rintro ⟨⟩)
    have hcreated : s.shared.created t = 1 := if_pos hlt
    have hplaced := task_placed hreach t
    have hsettled : s.shared.settled t = 1 := by rw [Shared.settled, hused]; rfl
    have hcounted := hs.counted.resolve_left (by rw [hused]; rintro ⟨⟩)
    rw [Shared.accounted] at hcounted
    have htally : s.tally (Proc.unreported t) ≠ 0 := by omega
    have hex : ∃ pid p, s.At pid p ∧ p.unreported t ≠ 0 := by
      by_contra hnone
      refine htally (Threads.tally_eq_zero fun pid p hp => ?_)
      by_contra hne
      exact hnone ⟨pid, p, hp, hne⟩
    obtain ⟨pid, p, hp, hun⟩ := hex
    refine .inr ⟨List.length_eq_zero_iff.mp hzero, pid, p, hp, ?_⟩
    refine Proc.reports_or_looksUp (fun howns => ?_) ((reported hreach).attests pid p hp)
      (hs.captured pid p hp) hused hun
    rw [live_of_owns hreach hp howns] at hused
    cases hused
  · exact .inl (messagesFor_eq hreach hused hpos)

/-- When the worker has ended, a task with a result was reported, unless a dispatcher
has yet to look its sender up. -/
theorem Heard.reported_of_done {r : Except PoolError R}
    (hreach : (poolMachine σ R cfg).Reachable ok s) (hwell : WorkerWell s) (hs : Heard t s)
    (hused : (s.shared.tasks t).sender = .used r) (hdone : s.shared.notifier.workerDone = true)
    (hlooked : ∀ pid p, s.At pid p → p.looksUp ≠ some t) :
    s.shared.messagesFor t = [cfg.report t r] := by
  rcases hs.reporting hreach hused with hsent | ⟨-, pid, p, hp, hreports | hlooks⟩
  · exact hsent
  · have hone := hreports.senders
    rw [(silent_of_done hreach hwell hdone).2 pid p hp] at hone
    cases hone
  · exact absurd hlooks (hlooked pid p hp)

/-- The wrapper of a heard task has a sender, or the task was reported. -/
theorem Heard.started (hreach : (poolMachine σ R cfg).Reachable ok s) (hs : Heard t s)
    {w : Wrapper R} (hw : s.At pid (.wrapper w)) (ht : w.task = t) :
    (w.pc.unreported = true ∧ w.sender = true) ∨
      ∃ r, (s.shared.tasks t).sender = .used r ∧ s.shared.messagesFor t = [cfg.report t r] := by
  cases hun : w.pc.unreported with
  | true =>
    have hone := hs.captured pid _ hw (by simp [Proc.captures, hun, ht])
    exact .inl ⟨rfl, by simpa [Proc.senders] using hone⟩
  | false =>
    have hpos := hs.followed pid w hw ht hun
    have hsome : s.shared.messagesFor t ≠ [] := by
      intro hnil
      rw [Shared.reports, hnil] at hpos
      cases hpos
    obtain ⟨r, hused⟩ := used_of_message hreach hsome
    exact .inr ⟨r, hused, messagesFor_eq hreach hused hpos⟩

/-- A task whose result is undecided is heard, if whoever has looked its sender up has
one and its wrapper does not unwind. -/
theorem Heard.of_live (hreach : (poolMachine σ R cfg).Reachable ok s)
    (hset : s.shared.notifier.sink ≠ .unset) (hlive : (s.shared.tasks t).sender = .live)
    (hcaptured : ∀ pid p, s.At pid p → p.captures = some t → p.senders = 1)
    (hunwind : ∀ pid w, s.At pid (.wrapper w) → w.task = t → w.pc.unreported = true) :
    Heard t s := by
  refine ⟨hset, hcaptured, fun pid w hw ht hafter => ?_, .inr ?_⟩
  · rw [hunwind pid w hw ht] at hafter
    cases hafter
  · have hplaced := task_placed hreach t
    have hsettled : s.shared.settled t = 0 := by rw [Shared.settled, hlive]; rfl
    have hle : (s.tally fun p => names t p.owns) ≤ s.tally (Proc.unreported t) := by
      refine Threads.tally_mono fun pid p hp => ?_
      by_cases howns : p.owns = some t
      · rw [howns, names_self]
        refine Nat.pos_of_ne_zero ?_
        cases p with
        | submit c =>
          obtain ⟨_, _, _, pc, _⟩ := c
          cases pc <;> cases howns <;>
            simp [Proc.unreported, Proc.seeks, Proc.captures, SubmitPc.seeks, SubmitPc.captures,
              SubmitPc.task, names]
        | loop d =>
          obtain ⟨_, pc, _⟩ := d
          cases pc <;> cases howns <;>
            simp [Proc.unreported, Proc.seeks, Proc.captures, LoopPc.seeks, LoopPc.captures,
              LoopPc.task, names]
        | wrapper w =>
          have ht : w.task = t := Option.some.inj (Proc.carries_of_owns howns)
          simp [Proc.unreported, Proc.seeks, Proc.captures, hunwind pid w hp ht, ht, names]
        | _ => cases howns
      · rw [names, if_neg howns]
        exact Nat.zero_le _
    rw [Shared.accounted]
    omega

/-! ## What the handlers were told -/

theorem Pool.sent_grows (h : (poolMachine σ R cfg).Steps ok s s') :
    ∃ more, s'.shared.notifier.sent = s.shared.notifier.sent ++ more := by
  refine Program.induct (I := fun s' =>
    ∃ more, s'.shared.notifier.sent = s.shared.notifier.sent ++ more) ?_ ?_ h
    ⟨[], (List.append_nil _).symm⟩
  · rintro s' b pid p sh p' sp ⟨more, hs⟩ _ _ hrun
    obtain ⟨last, hlast⟩ := (Proc.queue_of_run hrun).grows
    exact ⟨more ++ last, by rw [Threads.update_shared, hlast, hs, List.append_assoc]⟩
  · rintro s' c sh sp ⟨more, hs⟩ _ hcall
    exact ⟨more, by rw [Threads.spawn_shared, (Call.notifier_of_enter hcall).1, hs]⟩

/-- When the worker has ended, a handler has been called with every message from some
point of the queue on. -/
theorem Logged.finished (hreach : (poolMachine σ R cfg).Reachable ok s) (hs : Logged h k s)
    (hwell : WorkerWell s) (hdone : s.shared.notifier.workerDone = true) :
    s.shared.notifier.handed h = (s.shared.notifier.sent.drop k).map s.shared.info := by
  obtain ⟨pid, worker, hworker, hpc⟩ := worker_ended hreach hwell hdone
  have hhanded := hs.handed pid worker hworker (hwell pid worker hworker)
  simp only [hpc, NotifierPc.owed, List.append_nil] at hhanded
  rw [hhanded, Shared.announced, ((listening hreach).drained pid worker hworker hpc).2,
    List.take_length]

/-- The worker has called handler `h` with the messages of the queue from one point
on, and one of these is for task `t`, with the status of `r`. -/
def ToldOnce (cfg : PoolConfig) (h t : Nat) (r : Except PoolError R) (s : Pool σ R) : Prop :=
  ∃ k, s.shared.notifier.handed h = (s.shared.notifier.sent.drop k).map s.shared.info ∧
    (s.shared.notifier.sent.drop k).filter (·.core == t) = [cfg.report t r]

/-- A handler that was registered before a task was reported is told of it. -/
theorem told_once {r : Except PoolError R}
    (hreach : (poolMachine σ R cfg).Reachable Machine.anyStep s)
    (hmem : h ∈ s.shared.notifier.handlers) (hnone : s.shared.messagesFor t = [])
    (hsteps : (poolMachine σ R cfg).Steps ok s s') (hwell : WorkerWell s')
    (hdone : s'.shared.notifier.workerDone = true)
    (hmsg : s'.shared.messagesFor t = [cfg.report t r]) : ToldOnce cfg h t r s' := by
  obtain ⟨k, hlogged⟩ := logged hreach hmem
  obtain ⟨more, hsent⟩ := Pool.sent_grows hsteps
  have hreach' := hreach.trans hsteps.any
  refine ⟨k, (hlogged.steps hreach hsteps).finished hreach' hwell hdone, ?_⟩
  have hle : k ≤ s.shared.notifier.sent.length :=
    hlogged.taken.trans (listening hreach).taken_le
  have hfirst : (s.shared.notifier.sent.take k).filter (·.core == t) = [] := by
    refine List.filter_eq_nil_iff.mpr fun msg hmsg => ?_
    exact List.filter_eq_nil_iff.mp hnone msg (List.mem_of_mem_take hmsg)
  calc (s'.shared.notifier.sent.drop k).filter (·.core == t)
      = (s'.shared.notifier.sent.take k).filter (·.core == t) ++
          (s'.shared.notifier.sent.drop k).filter (·.core == t) := by
        rw [hsent, List.take_append_of_le_length hle, hfirst, List.nil_append]
    _ = s'.shared.messagesFor t := by
        rw [← List.filter_append, List.take_append_drop]
        rfl
    _ = [cfg.report t r] := hmsg

/-- The worker has called handler `h` with messages of the queue, none of which is for
task `t`. -/
def ToldNothing (h t : Nat) (s : Pool σ R) : Prop :=
  ∃ msgs : List InternalCompletionMessage, msgs.Sublist s.shared.notifier.sent ∧
    s.shared.notifier.handed h = msgs.map s.shared.info ∧ ∀ msg ∈ msgs, msg.core ≠ t

/-- A handler is not told of a task whose message is among those before its log. -/
theorem told_nothing (hreach : (poolMachine σ R cfg).Reachable Machine.anyStep s)
    (hs : Logged h k s) (htaken : ∃ msg ∈ s.shared.notifier.sent.take k, msg.core = t)
    (hsteps : (poolMachine σ R cfg).Steps ok s s') : ToldNothing h t s' := by
  have hreach' := hreach.trans hsteps.any
  have hs' := hs.steps hreach hsteps
  obtain ⟨more, hsent⟩ := Pool.sent_grows hsteps
  obtain ⟨later, hcalls⟩ := hs'.heard
  rw [Shared.announced] at hcalls
  obtain ⟨msgs, rest, hmsgs, hcalled, -⟩ := List.map_eq_append_iff.mp hcalls.symm
  have hsub : msgs.Sublist (s'.shared.notifier.sent.drop k) := by
    have hfirst : msgs.Sublist (msgs ++ rest) := List.sublist_append_left msgs rest
    rw [← hmsgs] at hfirst
    exact hfirst.trans ((List.take_sublist _ _).drop k)
  refine ⟨msgs, hsub.trans (List.drop_sublist k _), hcalled.symm, fun msg hmsg ht => ?_⟩
  -- two messages for the task, one among the first `k` and one after them
  have hle : k ≤ s.shared.notifier.sent.length :=
    hs.taken.trans (listening hreach).taken_le
  have hbefore : 0 < ((s'.shared.notifier.sent.take k).filter (·.core == t)).length := by
    obtain ⟨old, hold, hcore⟩ := htaken
    rw [hsent, List.take_append_of_le_length hle]
    exact List.length_pos_of_mem (List.mem_filter.mpr ⟨hold, beq_iff_eq.mpr hcore⟩)
  have hafter : 0 < ((s'.shared.notifier.sent.drop k).filter (·.core == t)).length :=
    List.length_pos_of_mem (List.mem_filter.mpr ⟨hsub.subset hmsg, beq_iff_eq.mpr ht⟩)
  have hboth : s'.shared.reports t =
      ((s'.shared.notifier.sent.take k).filter (·.core == t)).length +
        ((s'.shared.notifier.sent.drop k).filter (·.core == t)).length := by
    rw [← List.length_append, ← List.filter_append, List.take_append_drop]
    rfl
  have hreported := task_reported hreach' t
  have hone := s'.shared.created_le t
  omega

end Runs

end FuturesOrchestra
