import FuturesOrchestra.Proofs.Delivery

/-!
# Who is heard

A task is reported to the handlers when its completion sender was looked up in an
open sink and its wrapper does not unwind. `Heard` is the invariant of a run in
which both are so: whoever has looked the sender up has one, and the report is
lost only with the result. `Mute` is the opposite: a task whose process has no
sender is never reported.
-/

namespace FuturesOrchestra

open Interleaving

variable {σ R : Type} {cfg : PoolConfig} {pid t h k : Nat} {sh sh' : Shared σ R}
  {sp : Option (Proc R)} {p p' : Proc R}

/-! ## The lookup of the sender -/

/-- What a step makes of the process that has looked the sender up. -/
inductive CaptureStep (t : Nat) (sh : Shared σ R) (p p' : Proc R) : Prop
  | kept (hcaptures : p.captures = some t) (hsenders : p'.senders = p.senders)
  | found (hlooks : p.looksUp = some t)
      (hsenders : p'.senders = if sh.notifier.sink = .opened then 1 else 0)

theorem CompletionNotifier.lookup_senders (n : CompletionNotifier) :
    n.lookup.2.toNat = if n.sink = .opened then 1 else 0 := by
  unfold lookup
  cases h : n.sink <;> rfl

variable [Semaphore σ]

theorem SubmitStep.captures {kind : PoolKind} {c c' : SubmitCall R}
    (h : SubmitStep kind pid sh c sh' c' sp) :
    (c'.pc.captures = some t → CaptureStep t sh (.submit c) (.submit c')) ∧
      ∀ q, sp = some q → q.captures = some t → CaptureStep t sh (.submit c) q := by
  cases h with
  | lookup hkind hpc =>
    refine ⟨fun ht => .found ?_ ?_, by rintro q ⟨⟩⟩
    · simpa [Proc.looksUp, SubmitPc.looksUp, SubmitPc.captures, hpc] using ht
    · rw [← CompletionNotifier.lookup_senders]
      rfl
  | spawn hkind hpc =>
    refine ⟨by rintro ⟨⟩, ?_⟩
    rintro _ ⟨⟩ ht
    refine .kept ?_ ?_
    · simpa [Proc.captures, SubmitPc.captures, WrapperPc.unreported, hpc] using ht
    · simp [Proc.senders, SubmitPc.senders, hpc]
  | _ => exact ⟨by rintro ⟨⟩, by rintro q ⟨⟩⟩

theorem LoopStep.captures {d d' : DispatcherLoop} (h : LoopStep cfg pid sh d sh' d' sp) :
    (d'.pc.captures = some t → CaptureStep t sh (.loop d) (.loop d')) ∧
      ∀ q, sp = some q → q.captures = some t → CaptureStep t sh (.loop d) q := by
  cases h with
  | lookup hpc =>
    refine ⟨fun ht => .found ?_ ?_, by rintro q ⟨⟩⟩
    · simpa [Proc.looksUp, LoopPc.looksUp, LoopPc.captures, hpc] using ht
    · rw [← CompletionNotifier.lookup_senders]
      rfl
  | cancelLookup hpc hfound =>
    refine ⟨fun ht => .found ?_ ?_, by rintro q ⟨⟩⟩
    · simpa [Proc.looksUp, LoopPc.looksUp, LoopPc.captures, hpc] using ht
    · rw [← CompletionNotifier.lookup_senders, hfound]
      rfl
  | spawn hpc =>
    refine ⟨by rintro ⟨⟩, ?_⟩
    rintro _ ⟨⟩ ht
    refine .kept ?_ ?_
    · simpa [Proc.captures, LoopPc.captures, WrapperPc.unreported, hpc] using ht
    · simp [Proc.senders, LoopPc.senders, hpc]
  | _ => exact ⟨by rintro ⟨⟩, by rintro q ⟨⟩⟩

theorem WrapperStep.captures {w w' : Wrapper R} (h : WrapperStep cfg sh w sh' w')
    (ht : (Proc.wrapper w').captures = some t) :
    CaptureStep t sh (.wrapper w) (.wrapper w') := by
  cases h with
  | pollPending hpc | pollReady hpc | pollPanicked hpc | wake hpc | cancelled hpc | discard hpc
  | pass hpc | passPanic hpc | send hpc =>
    refine .kept ?_ rfl
    simpa [Proc.captures, WrapperPc.unreported, hpc] using ht
  | _ => simp [Proc.captures, WrapperPc.unreported] at ht

/-- A process that has looked the sender of a task up has got it from its own lookup,
or from the process that has started it. -/
theorem Proc.captures_of_run {b : Signal} (hrun : Proc.run cfg b pid sh p = some (sh', p', sp)) :
    (p'.captures = some t → CaptureStep t sh p p') ∧
      ∀ q, sp = some q → q.captures = some t → CaptureStep t sh p q := by
  rcases Proc.split_of_run hrun with ⟨c, c', rfl, rfl, hstep⟩ | ⟨d, d', rfl, rfl, hstep⟩ |
    ⟨w, w', rfl, rfl, hstep, rfl⟩ | hstep
  · exact hstep.captures
  · exact hstep.captures
  · exact ⟨hstep.captures, fun _ h => nomatch h⟩
  · obtain ⟨-, hp', hby⟩ := Bystanding.call hstep
    refine ⟨fun ht => ?_, fun q hq ht => ?_⟩
    · cases p' <;> first | cases ht | exact hp'.elim
    · have hquiet := hby.2 q hq
      cases q <;> first | cases ht | exact hquiet.elim

omit [Semaphore σ] in
theorem Call.captures_of_enter {c : Call R} (hcall : c.enter sh = some (sh', sp)) :
    ∀ q, sp = some q → q.captures = none ∧ q.seeks = none := by
  intro q hq
  cases (Call.enter_quiet hcall).2 q hq with
  | bystander hby => cases q <;> first | exact ⟨rfl, rfl⟩ | exact hby.elim
  | submit => exact ⟨rfl, rfl⟩

/-! ## Tasks that are heard -/

/-- The step of the process does not make the wrapper of task `t` unwind. -/
def Proc.settlesCalmly (t : Nat) (sh : Shared σ R) : Proc R → Bool
  | .wrapper w => w.task != t || !w.unwinds sh
  | _ => true

/-- The step of the process keeps task `t` heard: it does not look its sender up in a
closed sink, and it does not make its wrapper unwind. -/
def Proc.heeds (t : Nat) (sh : Shared σ R) (p : Proc R) : Bool :=
  (p.looksUp != some t || sh.notifier.sink != .closed) && p.settlesCalmly t sh

/-- The same of an event. -/
def heeds (t : Nat) (s : Pool σ R) : PoolEvent R → Bool
  | .run _ pid => (s.procs[pid]?).all (·.heeds t s.shared)
  | .call _ => true

/-- The step heeds task `t`, and no panic ends the worker in it while `t` is to be
reported. -/
def staysHeard (t : Nat) (s : Pool σ R) (e : PoolEvent R) : Bool :=
  heeds t s e && (sparesWorker s e || decide (0 < s.shared.reports t))

omit [Semaphore σ] in
theorem Proc.sink_of_heeds (hheeds : p.heeds t sh = true) (hlooks : p.looksUp = some t) :
    sh.notifier.sink ≠ .closed := by
  simp only [heeds, Bool.and_eq_true, Bool.or_eq_true, bne_iff_ne] at hheeds
  exact hheeds.1.resolve_left (· hlooks)

omit [Semaphore σ] in
theorem Proc.calm_of_heeds {w : Wrapper R} (hheeds : (Proc.wrapper w).heeds t sh = true)
    (ht : w.task = t) : w.unwinds sh = false := by
  simp only [heeds, settlesCalmly, Bool.and_eq_true, Bool.or_eq_true, bne_iff_ne,
    Bool.not_eq_true'] at hheeds
  exact hheeds.2.resolve_left (· ht)

/-- Whoever has looked up the sender of task `t` has one, its wrapper goes on only
with the report sent, and the report is lost only with the result. -/
structure Heard (t : Nat) (s : Pool σ R) : Prop where
  set : s.shared.notifier.sink ≠ .unset
  captured : ∀ pid p, s.At pid p → p.captures = some t → p.senders = 1
  followed : ∀ pid w, s.At pid (.wrapper w) → w.task = t → w.pc.unreported = false →
    0 < s.shared.reports t
  counted : (s.shared.tasks t).sender = .dropped ∨
    s.shared.created t ≤ s.shared.accounted t + s.tally (Proc.unreported t)

section Runs

variable {ok : Pool σ R → PoolEvent R → Prop} {s s' : Pool σ R}

theorem lt_of_settled (hreach : (poolMachine σ R cfg).Reachable ok s)
    (hsettled : (s.shared.tasks t).sender ≠ .live) : t < s.shared.nextTaskId := by
  have hplaced := task_placed hreach t
  have hone : s.shared.settled t = 1 := by
    rw [Shared.settled]
    cases hs : (s.shared.tasks t).sender with
    | live => exact absurd hs hsettled
    | used | dropped => rfl
  by_contra hlt
  have hnone : s.shared.created t = 0 := by simp [Shared.created, hlt]
  omega

/-- A sender that was dropped stays dropped. -/
theorem dropped_kept (hreach : (poolMachine σ R cfg).Reachable ok s)
    (hevolves : s.shared.Evolves sh') (hdropped : (s.shared.tasks t).sender = .dropped) :
    (sh'.tasks t).sender = .dropped := by
  have hlt : t < s.shared.nextTaskId := lt_of_settled hreach (by rw [hdropped]; nofun)
  rcases (hevolves.tasks t hlt).sender with hlive | hsame
  · rw [hdropped] at hlive
    cases hlive
  · rw [hsame, hdropped]

omit [Semaphore σ] in
theorem QueueStep.reports_le (hqueue : QueueStep cfg sh sh' p) : sh.reports t ≤ sh'.reports t := by
  cases hqueue with
  | kept hsent => rw [Shared.reports_eq hsent]
  | sent _ _ hsent =>
    rw [Shared.reports_append hsent]
    exact Nat.le_add_right _ _

/-- A wrapper comes past its report by sending it. -/
theorem WrapperStep.followed {w w' : Wrapper R} (h : WrapperStep cfg sh w sh' w')
    (hopen : w.sender = true → sh.notifier.workerDone = false)
    (hsender : w.pc.unreported = true → w.sender = true) (hunwinds : w.unwinds sh = false)
    (hbefore : w.pc.unreported = false → 0 < sh.reports w.task)
    (hafter : w'.pc.unreported = false) : 0 < sh'.reports w.task := by
  cases h with
  | @notify status hpc hfound =>
    have hsent : (sh.sendCompletion cfg w.task status).notifier.sent =
        sh.notifier.sent ++ [⟨cfg.poolName, w.task, status⟩] := by
      rw [Shared.sendCompletion_notifier, CompletionNotifier.send, hopen hfound]
      rfl
    rw [Shared.reports_append hsent, names_self]
    exact Nat.succ_pos _
  | silent hpc hmissing =>
    rw [hsender (by rw [hpc]; rfl)] at hmissing
    cases hmissing
  | discardUnwind hpc hcancelled hdrop =>
    rcases hcancelled with hcancelled | rfl <;> simp [Wrapper.unwinds, *] at hunwinds
  | sendUnwind hpc hdrop => simp [Wrapper.unwinds, hpc, hdrop] at hunwinds
  | unwind hpc | unwindSent hpc =>
    have hsame := hbefore (by rw [hpc]; rfl)
    rw [Shared.reports_eq]
    · exact hsame
    · rw [Shared.hangUp_notifier]
      split <;> rfl
  | close hkind hpc | closePanic hkind hpc | remove hkind hpc | finish hkind hpc
  | countOut hkind hpc | release hkind hpc | releasePanic hkind hpc =>
    exact hbefore (by rw [hpc]; rfl)
  | _ => cases hafter

theorem Heard.update {b : Signal} (hreach : (poolMachine σ R cfg).Reachable ok s)
    (hlistens : WorkerWell s ∨ 0 < s.shared.reports t) (hs : Heard t s)
    (hheeds : p.heeds t s.shared = true) (hp : s.At pid p)
    (hrun : Proc.run cfg b pid s.shared p = some (sh', p', sp)) :
    Heard t (s.update pid sh' p' sp) := by
  have hopened (hlooks : p.looksUp = some t) : s.shared.notifier.sink = .opened := by
    have hclosed := Proc.sink_of_heeds hheeds hlooks
    have hset := hs.set
    cases hsink : s.shared.notifier.sink with
    | unset => exact absurd hsink hset
    | opened => rfl
    | closed => exact absurd hsink hclosed
  have hkept {q : Proc R} (hq : CaptureStep t s.shared p q) : q.senders = 1 := by
    cases hq with
    | kept hcaptures hsenders => exact hsenders.trans (hs.captured pid p hp hcaptures)
    | found hlooks hsenders => rw [hsenders, if_pos (hopened hlooks)]
  obtain ⟨hself, hnew⟩ := Proc.captures_of_run (t := t) hrun
  refine ⟨(Proc.sink_of_run hrun).advances.set hs.set, fun qid q hq ht => ?_,
    fun qid w' hw' ht hafter => ?_, ?_⟩
  · rcases Threads.update_getElem? hp hq with ⟨-, rfl⟩ | ⟨-, hold⟩ | ⟨-, hsp⟩
    · exact hkept (hself ht)
    · exact hs.captured qid q hold ht
    · exact hkept (hnew q hsp ht)
  · have hmono := (Proc.queue_of_run hrun).reports_le (t := t)
    rcases Threads.update_getElem? hp hw' with ⟨-, heq⟩ | ⟨-, hold⟩ | ⟨-, hsp⟩
    · obtain ⟨w, rfl, hstep⟩ := Proc.wrapper_of_run (heq ▸ hrun)
      have htask : w.task = t := hstep.task_kept.symm.trans ht
      subst htask
      rcases hlistens with hwell | hreported
      swap
      · exact hreported.trans_le hmono
      refine hstep.followed (fun hsender => ?_) (fun hun => ?_) (Proc.calm_of_heeds hheeds rfl)
        (hs.followed pid w hp rfl) hafter
      · rw [← Bool.not_eq_true]
        intro hdone
        have hnone := (silent_of_done hreach hwell hdone).2 pid _ hp
        simp [Proc.senders, hsender] at hnone
      · have hone := hs.captured pid _ hp (by simp [Proc.captures, hun])
        simpa [Proc.senders] using hone
    · exact (hs.followed qid w' hold ht hafter).trans_le hmono
    · -- a wrapper begins at its first poll
      have hpoll := ((Proc.step_of_run (hsp ▸ hrun)).spawned).2
      rw [hpoll] at hafter
      cases hafter
  · rw [Threads.update_shared]
    rcases hs.counted with hdropped | hcounted
    · exact .inl (dropped_kept hreach (.proc (Proc.step_of_run hrun)) hdropped)
    · have htally := Threads.tally_update (Proc.unreported t) sh' p' sp hp
      rcases Proc.accounts (t := t) hreach hp hrun with heq | ⟨heq, hloses⟩
      · exact .inr (by omega)
      · cases hloses with
        | dropped hdropped => exact .inl hdropped
        | unheard hlooks hsink => exact absurd (hopened hlooks) hsink
        | silent hcaptures hsenders =>
          rw [hs.captured pid p hp hcaptures] at hsenders
          cases hsenders
        | unwound hwrapper htask hunwinds =>
          subst hwrapper
          rw [Proc.calm_of_heeds hheeds htask] at hunwinds
          cases hunwinds
        | deaf hsenders hdone =>
          rcases hlistens with hwell | hreported
          · rw [(silent_of_done hreach hwell hdone).2 pid p hp] at hsenders
            cases hsenders
          · -- the report that the worker does not take is of another task
            have hmono := (Proc.queue_of_run hrun).reports_le (t := t)
            have hone := sh'.created_le t
            refine .inr ?_
            rw [Shared.accounted]
            omega

theorem Heard.spawn {c : Call R} (hreach : (poolMachine σ R cfg).Reachable ok s) (hs : Heard t s)
    (hcall : c.enter s.shared = some (sh', sp)) : Heard t (s.spawn sh' sp) := by
  obtain ⟨hnotifier, -, -⟩ := Call.notifier_of_enter hcall
  obtain ⟨haccounted, hcreated, hstarted⟩ := Call.unreported_of_enter (t := t) hcall
  refine ⟨?_, fun qid q hq ht => ?_, fun qid w hw ht hafter => ?_, ?_⟩
  · rw [Threads.spawn_shared, hnotifier]
    exact hs.set
  · rcases Threads.spawn_getElem? hq with hold | ⟨-, hnew⟩
    · exact hs.captured qid q hold ht
    · rw [(Call.captures_of_enter hcall q hnew).1] at ht
      cases ht
  · rw [Threads.spawn_shared, Shared.reports_eq (congrArg (·.sent) hnotifier)]
    rcases Threads.spawn_getElem? hw with hold | ⟨-, hnew⟩
    · exact hs.followed qid w hold ht hafter
    · cases (Call.enter_quiet hcall).2 _ hnew with
      | bystander hby => exact hby.elim
  · rw [Threads.spawn_shared, Threads.tally_spawn, haccounted, hcreated, hstarted]
    exact hs.counted.imp (dropped_kept hreach (.quiet (Call.enter_quiet hcall).1)) id

/-- A task goes on being heard in every run whose steps heed it and spare the worker until
it was reported. -/
theorem Heard.steps (hreach : (poolMachine σ R cfg).Reachable Machine.anyStep s)
    (hlistens : WorkerWell s ∨ 0 < s.shared.reports t) (hs : Heard t s)
    (hsteps : (poolMachine σ R cfg).Steps (fun s e => staysHeard t s e = true) s s') :
    Heard t s' := by
  refine (Pool.invariant (I := fun s => (WorkerWell s ∨ 0 < s.shared.reports t) ∧ Heard t s)
    hreach ?_ ?_ hsteps ⟨hlistens, hs⟩).2
  · rintro s b pid p sh p' sp hreach ⟨hlistens, hs⟩ hok hp hrun
    simp only [staysHeard, Bool.and_eq_true, Bool.or_eq_true, decide_eq_true_eq] at hok
    obtain ⟨hheeds, hspares⟩ := hok
    refine ⟨?_, hs.update hreach hlistens (by simpa [heeds, hp] using hheeds) hp hrun⟩
    have hmono := (Proc.queue_of_run hrun).reports_le (t := t)
    rw [Threads.update_shared]
    rcases hlistens with hwell | hreported
    · exact hspares.imp (fun h => hwell.update h hp hrun) hmono.trans_lt'
    · exact .inr (hreported.trans_le hmono)
  · rintro s c sh sp hreach ⟨hlistens, hs⟩ _ hcall
    refine ⟨?_, hs.spawn hreach hcall⟩
    rw [Threads.spawn_shared, Shared.reports_eq (congrArg (·.sent) (Call.notifier_of_enter hcall).1)]
    exact hlistens.imp (fun h => h.spawn hcall) id

/-! ## Tasks that are not heard -/

/-- The process has looked up the sender of task `t` and has none, or is about to look
it up in a closed sink. -/
def Proc.Muffled (t : Nat) (sh : Shared σ R) (p : Proc R) : Prop :=
  (p.looksUp = some t ∧ sh.notifier.sink = .closed) ∨ (p.captures = some t ∧ p.senders = 0)

/-- What a step makes of a process that cannot report task `t`: it or the process it
starts still cannot, or the task is beyond its report. -/
inductive MuteStep (t : Nat) (sh sh' : Shared σ R) (p' : Proc R) (sp : Option (Proc R)) : Prop
  | self (hmuffled : p'.Muffled t sh')
  | started {q} (hsp : sp = some q) (hmuffled : q.Muffled t sh')
  | past (haccounted : sh'.accounted t = sh.accounted t) (hun : p'.unreported t = 0)
      (hstarted : Threads.started (Proc.unreported t) sp = 0)

theorem SubmitStep.mute {kind : PoolKind} {c c' : SubmitCall R}
    (hmuffled : (Proc.submit c).Muffled t sh) (h : SubmitStep kind pid sh c sh' c' sp) :
    MuteStep t sh sh' (.submit c') sp := by
  rcases hmuffled with ⟨hlooks, hclosed⟩ | ⟨hcaptures, hsenders⟩
  · have hmissing := CompletionNotifier.lookup_closed hclosed
    cases h with
    | lookup hkind hpc =>
      refine .self (.inr ⟨?_, ?_⟩)
      · simpa [Proc.looksUp, Proc.captures, SubmitPc.looksUp, SubmitPc.captures, hpc] using hlooks
      · simp [Proc.senders, SubmitPc.senders, hmissing]
    | refuse hpc | reject hpc | abandon hpc =>
      rcases hpc with hpc | hpc <;> simp [Proc.looksUp, SubmitPc.looksUp, hpc] at hlooks
    | _ => simp_all [Proc.looksUp, SubmitPc.looksUp]
  · cases h with
    | spawn hkind hpc =>
      refine .started rfl (.inr ⟨?_, ?_⟩)
      · simpa [Proc.captures, SubmitPc.captures, WrapperPc.unreported, hpc] using hcaptures
      · simpa [Proc.senders, SubmitPc.senders, hpc] using hsenders
    | refuse hpc | reject hpc | abandon hpc =>
      rcases hpc with hpc | hpc <;> simp [Proc.captures, SubmitPc.captures, hpc] at hcaptures
    | _ => simp_all [Proc.captures, SubmitPc.captures]

theorem LoopStep.mute {d d' : DispatcherLoop} (hmuffled : (Proc.loop d : Proc R).Muffled t sh)
    (h : LoopStep cfg pid sh d sh' d' sp) : MuteStep t sh sh' (.loop d') sp := by
  rcases hmuffled with ⟨hlooks, hclosed⟩ | ⟨hcaptures, hsenders⟩
  · have hmissing := CompletionNotifier.lookup_closed hclosed
    cases h with
    | lookup hpc =>
      refine .self (.inr ⟨?_, ?_⟩)
      · simpa [Proc.looksUp, Proc.captures, LoopPc.looksUp, LoopPc.captures, hpc] using hlooks
      · simp [Proc.senders, LoopPc.senders, hmissing]
    | cancelLookup hpc hfound =>
      rw [hmissing] at hfound
      cases hfound
    | cancelUnheard hpc =>
      refine .past ?_ rfl rfl
      exact Shared.accounted_eq rfl (CompletionNotifier.sent_lookup _)
    | _ => simp_all [Proc.looksUp, LoopPc.looksUp]
  · cases h with
    | spawn hpc =>
      refine .started rfl (.inr ⟨?_, ?_⟩)
      · simpa [Proc.captures, LoopPc.captures, WrapperPc.unreported, hpc] using hcaptures
      · simpa [Proc.senders, LoopPc.senders, hpc] using hsenders
    | cancelNotify hpc => simp [Proc.senders, LoopPc.senders, hpc] at hsenders
    | _ => simp_all [Proc.captures, LoopPc.captures]

theorem WrapperStep.mute {w w' : Wrapper R} (hmuffled : (Proc.wrapper w).Muffled t sh)
    (h : WrapperStep cfg sh w sh' w') : MuteStep t sh sh' (.wrapper w') none := by
  obtain ⟨hcaptures, hsenders⟩ := hmuffled.resolve_left fun hlooks => nomatch hlooks.1
  cases h with
  | notify hpc hfound => simp [Proc.senders, hfound] at hsenders
  | silent hpc | discardUnwind hpc | sendUnwind hpc =>
    refine .past rfl ?_ rfl
    simp [Proc.unreported, Proc.seeks, Proc.captures, WrapperPc.unreported]
  | pollPending hpc | pollReady hpc | pollPanicked hpc | wake hpc | cancelled hpc | discard hpc
  | pass hpc | passPanic hpc | send hpc =>
    refine .self (.inr ⟨?_, hsenders⟩)
    simpa [Proc.captures, WrapperPc.unreported, hpc] using hcaptures
  | _ => simp_all [Proc.captures, WrapperPc.unreported]

/-- A wrapper that unwinds does not report its task. -/
theorem WrapperStep.mute_of_unwinds {w w' : Wrapper R} (hunwinds : w.unwinds sh = true)
    (h : WrapperStep cfg sh w sh' w') :
    sh'.accounted t = sh.accounted t ∧ (Proc.wrapper w').unreported t = 0 := by
  cases h with
  | discardUnwind | sendUnwind =>
    refine ⟨rfl, ?_⟩
    simp [Proc.unreported, Proc.seeks, Proc.captures, WrapperPc.unreported]
  | _ => simp_all [Wrapper.unwinds, Wrapper.discardPanics]

theorem Proc.mute_of_run {b : Signal} (hmuffled : p.Muffled t sh)
    (hrun : Proc.run cfg b pid sh p = some (sh', p', sp)) : MuteStep t sh sh' p' sp := by
  rcases Proc.split_of_run hrun with ⟨c, c', rfl, rfl, hstep⟩ | ⟨d, d', rfl, rfl, hstep⟩ |
    ⟨w, w', rfl, rfl, hstep, rfl⟩ | hstep
  · exact hstep.mute hmuffled
  · exact hstep.mute hmuffled
  · exact hstep.mute hmuffled
  · have hby := (Bystanding.call hstep).1
    rcases hmuffled with ⟨hlooks, -⟩ | ⟨hcaptures, -⟩
    · cases p <;> first | cases hlooks | exact hby.elim
    · cases p <;> first | cases hcaptures | exact hby.elim

omit [Semaphore σ] in
theorem Proc.seeks_of_looksUp (hlooks : p.looksUp = some t) : p.seeks = some t := by
  cases p with
  | submit c =>
    obtain ⟨_, _, _, pc, _⟩ := c
    cases pc <;> first | exact hlooks | cases hlooks
  | loop d =>
    obtain ⟨_, pc, _⟩ := d
    cases pc <;> first | exact hlooks | cases hlooks
  | _ => cases hlooks

omit [Semaphore σ] in
theorem Proc.Muffled.unreported (hmuffled : p.Muffled t sh) : p.unreported t ≠ 0 := by
  rcases hmuffled with ⟨hlooks, -⟩ | ⟨hcaptures, -⟩
  · simp [Proc.unreported, Proc.seeks_of_looksUp hlooks, names_self]
  · simp [Proc.unreported, hcaptures, names_self]

omit [Semaphore σ] in
theorem Shared.created_mono (h : sh.nextTaskId ≤ sh'.nextTaskId) :
    sh.created t ≤ sh'.created t := by
  unfold created
  split
  · next hlt => rw [if_pos (hlt.trans_le h)]
  · exact Nat.zero_le _

/-- Task `t` will never be reported: its process has no sender, or it is beyond its
report. -/
def Mute (t : Nat) (s : Pool σ R) : Prop :=
  (∃ pid p, s.At pid p ∧ p.Muffled t s.shared) ∨
    (s.shared.created t = 1 ∧ s.shared.accounted t + s.tally (Proc.unreported t) = 0)

/-- A task whose only report was still to come is beyond it once the process that could
have reported it has gone on without. -/
theorem Mute.of_over {b : Signal} (hreach : (poolMachine σ R cfg).Reachable ok s)
    (hp : s.At pid p) (hrun : Proc.run cfg b pid s.shared p = some (sh', p', sp))
    (hpos : p.unreported t ≠ 0) (haccounted : sh'.accounted t = s.shared.accounted t)
    (hun : p'.unreported t = 0) (hstarted : Threads.started (Proc.unreported t) sp = 0) :
    Mute t (s.update pid sh' p' sp) := by
  have htally := Threads.tally_update (Proc.unreported t) sh' p' sp hp
  have hreported := task_reported hreach t
  have hle := Threads.le_tally (g := Proc.unreported t) hp
  have hstays := Shared.created_mono (t := t)
    (Shared.Evolves.proc (Proc.step_of_run hrun)).nextTaskId
  have hone := s.shared.created_le t
  have hone' := sh'.created_le t
  refine .inr ⟨?_, ?_⟩
  · rw [Threads.update_shared]
    omega
  · rw [Threads.update_shared, haccounted, Shared.accounted]
    omega

theorem Mute.update {b : Signal} (hreach : (poolMachine σ R cfg).Reachable ok s) (hs : Mute t s)
    (hp : s.At pid p) (hrun : Proc.run cfg b pid s.shared p = some (sh', p', sp)) :
    Mute t (s.update pid sh' p' sp) := by
  rcases hs with ⟨qid, q, hq, hmuffled⟩ | ⟨hcreated, hnone⟩
  · by_cases hqid : qid = pid
    · subst hqid
      obtain rfl := Option.some.inj (hp.symm.trans hq)
      cases Proc.mute_of_run hmuffled hrun with
      | self hself => exact .inl ⟨_, p', Threads.update_self hp, hself⟩
      | @started r hsp hstarted =>
        subst hsp
        exact .inl ⟨_, r, Threads.update_new r, hstarted⟩
      | past haccounted hun hstarted =>
        exact .of_over hreach hp hrun hmuffled.unreported haccounted hun hstarted
    · refine .inl ⟨qid, q, Threads.update_other hqid hq, ?_⟩
      exact hmuffled.imp (fun hlooks =>
        ⟨hlooks.1, (Proc.sink_of_run hrun).advances.closed hlooks.2⟩) id
  · have htally := Threads.tally_update (Proc.unreported t) sh' p' sp hp
    have hstays := Shared.created_mono (t := t)
      (Shared.Evolves.proc (Proc.step_of_run hrun)).nextTaskId
    have hone := sh'.created_le t
    refine .inr ⟨?_, ?_⟩
    · rw [Threads.update_shared]
      omega
    · rw [Threads.update_shared]
      rcases Proc.accounts (t := t) hreach hp hrun with heq | ⟨heq, -⟩ <;> omega

omit [Semaphore σ] in
theorem Mute.spawn {c : Call R} (hs : Mute t s) (hcall : c.enter s.shared = some (sh', sp)) :
    Mute t (s.spawn sh' sp) := by
  obtain ⟨haccounted, hcreated, hstarted⟩ := Call.unreported_of_enter (t := t) hcall
  rcases hs with ⟨qid, q, hq, hmuffled⟩ | hnone
  · refine .inl ⟨qid, q, Threads.spawn_other hq, ?_⟩
    rwa [Proc.Muffled, Threads.spawn_shared, (Call.notifier_of_enter hcall).1]
  · refine .inr ?_
    rwa [Threads.tally_spawn, Threads.spawn_shared, haccounted, hcreated, hstarted]

/-- A step that does not heed a task leaves it unreported for good. -/
theorem Mute.of_unheeded {b : Signal} (hreach : (poolMachine σ R cfg).Reachable ok s)
    (hp : s.At pid p) (hrun : Proc.run cfg b pid s.shared p = some (sh', p', sp))
    (hheeds : p.heeds t s.shared = false) : Mute t (s.update pid sh' p' sp) := by
  simp only [Proc.heeds, Bool.and_eq_false_iff, Bool.or_eq_false_iff, bne_eq_false_iff_eq] at hheeds
  rcases hheeds with ⟨hlooks, hclosed⟩ | hunwinds
  · exact Mute.update hreach (.inl ⟨pid, p, hp, .inl ⟨hlooks, hclosed⟩⟩) hp hrun
  · cases p with
    | wrapper w =>
      simp only [Proc.settlesCalmly, Bool.or_eq_false_iff, bne_eq_false_iff_eq,
        Bool.not_eq_false'] at hunwinds
      obtain ⟨ht, hunwinds⟩ := hunwinds
      rcases Proc.split_of_run hrun with ⟨_, _, heq, -⟩ | ⟨_, _, heq, -⟩ |
        ⟨_, w', heq, rfl, hstep, rfl⟩ | hstep
      · cases heq
      · cases heq
      · cases heq
        obtain ⟨haccounted, hun⟩ := hstep.mute_of_unwinds (t := t) hunwinds
        refine .of_over hreach hp hrun ?_ haccounted hun rfl
        have hcaptures : (Proc.wrapper w).captures = some t := by
          obtain ⟨_, _, _, pc⟩ := w
          cases pc <;> simp_all [Wrapper.unwinds, Proc.captures, WrapperPc.unreported]
        simp [Proc.unreported, hcaptures, names_self]
      · exact (Bystanding.call hstep).1.elim
    | _ => cases hunwinds

/-- A task that cannot be reported never is. -/
theorem Mute.unreported (hreach : (poolMachine σ R cfg).Reachable Machine.anyStep s)
    (hs : Mute t s) (hsteps : (poolMachine σ R cfg).Steps ok s s') :
    s'.shared.messagesFor t = [] := by
  have hmute : Mute t s' := by
    refine Pool.invariant (I := Mute t) hreach ?_ ?_ hsteps hs
    · intro s b pid p sh p' sp hreach hs _ hp hrun
      exact hs.update hreach hp hrun
    · intro s c sh sp _ hs _ hcall
      exact hs.spawn hcall
  have hreported := task_reported (hreach.trans hsteps.any) t
  have hone := s'.shared.created_le t
  refine List.length_eq_zero_iff.mp ?_
  show s'.shared.reports t = 0
  rcases hmute with ⟨pid, p, hp, hmuffled⟩ | ⟨-, hnone⟩
  · have hpos := hmuffled.unreported
    have hle := Threads.le_tally (g := Proc.unreported t) hp
    omega
  · rw [Shared.accounted] at hnone
    omega

end Runs

end FuturesOrchestra
