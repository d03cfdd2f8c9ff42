import FuturesOrchestra.Pool

/-!
# What a step of another call, or of the notification worker, can be

The steps of the `Drop` of a manager handle, of `shutdown`, of label cancellation
and handler registration, and of the notification worker, as rules.
-/

namespace FuturesOrchestra

open Interleaving

variable {σ R : Type} {cfg : PoolConfig} {pid : Nat} {sh sh' : Shared σ R}
  {sp : Option (Proc R)}

/-! ## Dropping a manager handle -/

/-- One more sender of the queue is gone, unless this handle's was closed before. -/
def Shared.closeQueue (sh : Shared σ R) (closed : Bool) : Shared σ R :=
  { sh with queueSenders := if closed then sh.queueSenders else sh.queueSenders - 1 }

/-- The rules of `Drop for FuturePoolManager`. `closed` tells whether the queue
handle is closed already. -/
inductive DropStep (sh : Shared σ R) (closed : Bool) :
    DropPc → Shared σ R → Bool → DropPc → Prop
  | shared (hguards : 1 < sh.guards) : DropStep sh closed .count sh closed .release
  | last (hguards : sh.guards ≤ 1) : DropStep sh closed .count sh closed .token
  | tokenSet (htoken : sh.token = true) : DropStep sh closed .token sh closed .release
  | token (htoken : sh.token = false) : DropStep sh closed .token sh closed .cancel
  | cancel : DropStep sh closed .cancel { sh with token := true } closed .close
  | close : DropStep sh closed .close (sh.closeQueue closed) true .closeSink
  | closeSink :
      DropStep sh closed .closeSink { sh with notifier := sh.notifier.close } closed .release
  | release (howned : ¬(sh.guards - 1 = 0 ∧ sh.queueClosed = true)) :
      DropStep sh closed .release { sh.closeQueue closed with guards := sh.guards - 1 } true .done
  | releaseLast (hguards : sh.guards - 1 = 0) (hclosed : sh.queueClosed = true) :
      DropStep sh closed .release
        { sh.closeQueue closed with guards := sh.guards - 1, notifier := sh.notifier.close }
        true .done

theorem DropStep.of_dropManager {closed closed' : Bool} {pc pc' : DropPc} (hpc : pc ≠ .done)
    (h : sh.dropManager closed pc = (sh', closed', pc')) :
    DropStep sh closed pc sh' closed' pc' := by
  cases pc with
  | count =>
    cases h
    split
    · next hguards => exact .shared hguards
    · next hguards => exact .last (by omega)
  | token =>
    cases h
    split
    · next htoken => exact .tokenSet htoken
    · next htoken => exact .token (by simpa using htoken)
  | cancel => cases h; exact .cancel
  | close =>
    cases h
    cases closed <;> exact .close
  | closeSink => cases h; exact .closeSink
  | release =>
    cases h
    by_cases hlast : sh.guards - 1 = 0 ∧ sh.queueClosed = true
    · rw [Shared.dropSink_of_last]
      · cases closed <;> exact .releaseLast hlast.1 hlast.2
      · exact hlast.1
      · exact hlast.2
    · rw [Shared.dropSink_of_owned]
      · cases closed <;> exact .release hlast
      · exact hlast
  | done => exact absurd rfl hpc

/-! ## Shutdown -/

namespace ShutdownCall

@[simp] theorem goto_pc (c : ShutdownCall) (pc : ShutdownPc) : (c.goto pc).pc = pc := rfl

@[simp] theorem goto_already (c : ShutdownCall) (pc : ShutdownPc) :
    (c.goto pc).already = c.already := rfl

end ShutdownCall

/-- `ShutdownStep cfg b sh c sh' c'`: a step of a `shutdown` call on signal `b`. -/
inductive ShutdownStep (cfg : PoolConfig) (b : Signal) (sh : Shared σ R) (c : ShutdownCall) :
    Shared σ R → ShutdownCall → Prop
  | initiate (hpc : c.pc = .readToken) (htoken : sh.token = false) :
      ShutdownStep cfg b sh c sh { c with already := false, pc := .cancel }
  | join (hpc : c.pc = .readToken) (htoken : sh.token = true) :
      ShutdownStep cfg b sh c sh { c with already := true, pc := .count 0 0 }
  | cancel (hpc : c.pc = .cancel) :
      ShutdownStep cfg b sh c { sh with token := true } (c.goto .close)
  | closeGraceful (hpc : c.pc = .close) (hmode : c.mode = .graceful) :
      ShutdownStep cfg b sh c (sh.closeQueue false) { c with closed := true, pc := .count 0 0 }
  | closeForceful (hpc : c.pc = .close) (hmode : c.mode = .forcefulCancel) :
      ShutdownStep cfg b sh c (sh.closeQueue false) { c with closed := true, pc := .sweep 0 [] }
  | sweep {shard tokens found} (hpc : c.pc = .sweep shard tokens)
      (hread : sh.readTokens cfg shard = some found) :
      ShutdownStep cfg b sh c sh (c.goto (.sweep (shard + 1) (tokens ++ found)))
  | sweepEnd {shard tokens} (hpc : c.pc = .sweep shard tokens)
      (hread : sh.readTokens cfg shard = none) :
      ShutdownStep cfg b sh c sh (c.goto (.cancelAll tokens))
  | cancelTask {t tokens} (hpc : c.pc = .cancelAll (t :: tokens)) :
      ShutdownStep cfg b sh c (sh.modifyTask t Task.cancel) (c.goto (.cancelAll tokens))
  | cancelEnd (hpc : c.pc = .cancelAll []) : ShutdownStep cfg b sh c sh (c.goto (.count 0 0))
  | count {shard active n} (hpc : c.pc = .count shard active)
      (hread : sh.readLen cfg shard = some n) :
      ShutdownStep cfg b sh c sh (c.goto (.count (shard + 1) (active + n)))
  | countZero {shard} (hpc : c.pc = .count shard 0) (hread : sh.readLen cfg shard = none) :
      ShutdownStep cfg b sh c sh (c.goto .takeHandles)
  | countWait {shard active} (hpc : c.pc = .count shard active)
      (hread : sh.readLen cfg shard = none) (hactive : active ≠ 0) :
      ShutdownStep cfg b sh c sh (c.goto .wait)
  | tick (hpc : c.pc = .wait) : ShutdownStep cfg b sh c sh (c.goto (.count 0 0))
  | waitTimeout (hb : b = .timeout) (hpc : c.pc = .wait) :
      ShutdownStep cfg b sh c sh (c.goto .takeHandles)
  | takeHandles (hpc : c.pc = .takeHandles) :
      ShutdownStep cfg b sh c { sh with joinHandles := [] } (c.goto (.join sh.joinHandles))
  | joined {lane handles items receiver} (hpc : c.pc = .join (lane :: handles))
      (hlane : sh.lanes[lane]? = some ⟨items, receiver, true⟩) :
      ShutdownStep cfg b sh c sh (c.goto (.join handles))
  | joinTimeout {lane handles} (hb : b = .timeout) (hpc : c.pc = .join (lane :: handles)) :
      ShutdownStep cfg b sh c sh (c.goto (.join handles))
  | joinEnd (hpc : c.pc = .join []) (halready : c.already = false) :
      ShutdownStep cfg b sh c sh (c.goto .closeSink)
  | joinEndAlready (hpc : c.pc = .join []) (halready : c.already = true) :
      ShutdownStep cfg b sh c sh (c.goto .takeNotifier)
  | closeSink (hpc : c.pc = .closeSink) :
      ShutdownStep cfg b sh c { sh with notifier := sh.notifier.close } (c.goto .takeNotifier)
  | takeNotifier (hpc : c.pc = .takeNotifier) (hhandle : sh.notifier.workerHandle = true) :
      ShutdownStep cfg b sh c
        { sh with notifier := { sh.notifier with workerHandle := false } } (c.goto .awaitNotifier)
  | noNotifier (hpc : c.pc = .takeNotifier) (hhandle : sh.notifier.workerHandle = false) :
      ShutdownStep cfg b sh c sh (c.goto (.dropSelf .count))
  | notifierDone (hpc : c.pc = .awaitNotifier) (hdone : sh.notifier.workerDone = true) :
      ShutdownStep cfg b sh c sh (c.goto (.dropSelf .count))
  | notifierTimeout (hb : b = .timeout) (hpc : c.pc = .awaitNotifier) :
      ShutdownStep cfg b sh c sh (c.goto (.dropSelf .count))
  | dropSelf {pc sh' closed pc'} (hpc : c.pc = .dropSelf pc)
      (hdrop : DropStep sh c.closed pc sh' closed pc') :
      ShutdownStep cfg b sh c sh' { c with closed := closed, pc := .dropSelf pc' }
  | returned (hpc : c.pc = .dropSelf .done) (hdropped : c.dropped = none) :
      ShutdownStep cfg b sh c sh (c.goto .returned)
  | abandoned (hpc : c.pc = .dropSelf .done) (hdropped : c.dropped.isSome = true) :
      ShutdownStep cfg b sh c sh (c.goto .abandoned)
  | abandon (hb : b = .abandon)
      (hpc : c.pc = .wait ∨ (∃ lane handles, c.pc = .join (lane :: handles)) ∨
        c.pc = .awaitNotifier) :
      ShutdownStep cfg b sh c sh { c with dropped := some c.pc, pc := .dropSelf .count }

namespace ShutdownStep

variable {c c' : ShutdownCall}

theorem of_step (h : c.step cfg sh = some (sh', c', sp)) :
    ShutdownStep cfg .step sh c sh' c' ∧ sp = none := by
  revert h
  fun_cases ShutdownCall.step cfg sh c
  all_goals rintro ⟨⟩
  all_goals refine ⟨?_, rfl⟩
  case case1 hpc =>
    cases htoken : sh.token with
    | false => exact .initiate hpc htoken
    | true => exact .join hpc htoken
  case case2 hpc => exact .cancel hpc
  case case3 hpc =>
    split
    · next hmode => exact .closeForceful hpc hmode
    · next hmode => exact .closeGraceful hpc (by cases h : c.mode <;> simp_all)
  case case4 hpc found hread => exact .sweep hpc hread
  case case5 hpc hread => exact .sweepEnd hpc hread
  case case6 hpc => exact .cancelTask hpc
  case case7 hpc => exact .cancelEnd hpc
  case case8 hpc n hread => exact .count hpc hread
  case case9 hpc hread =>
    split
    · next hzero => exact .countZero (hzero ▸ hpc) hread
    · next hactive => exact .countWait hpc hread hactive
  case case10 hpc => exact .tick hpc
  case case11 hpc => exact .takeHandles hpc
  case case12 hpc items receiver hlane => exact .joined hpc hlane
  case case14 hpc =>
    cases halready : c.already with
    | false => exact .joinEnd hpc halready
    | true => exact .joinEndAlready hpc halready
  case case15 hpc => exact .closeSink hpc
  case case16 hpc hhandle => exact .takeNotifier hpc hhandle
  case case17 hpc hhandle => exact .noNotifier hpc (by simpa using hhandle)
  case case18 hpc hdone => exact .notifierDone hpc hdone
  case case20 hpc =>
    cases hdropped : c.dropped with
    | none => exact .returned hpc hdropped
    | some pc => exact .abandoned hpc (congrArg Option.isSome hdropped)
  case case21 hdone hpc closed pc' hdrop => exact .dropSelf hpc (.of_dropManager hdone hdrop)

theorem of_timeout (h : c.timeout sh = some (sh', c', sp)) :
    ShutdownStep cfg .timeout sh c sh' c' ∧ sp = none := by
  revert h
  fun_cases ShutdownCall.timeout sh c
  all_goals rintro ⟨⟩
  all_goals refine ⟨?_, rfl⟩
  case case1 hpc => exact .waitTimeout rfl hpc
  case case2 hpc => exact .joinTimeout rfl hpc
  case case3 hpc => exact .notifierTimeout rfl hpc

theorem of_abandon (h : c.abandon sh = some (sh', c', sp)) :
    ShutdownStep cfg .abandon sh c sh' c' ∧ sp = none := by
  revert h
  fun_cases ShutdownCall.abandon sh c
  all_goals rintro ⟨⟩
  all_goals refine ⟨?_, rfl⟩
  case case1 hpc => exact .abandon rfl (.inl hpc)
  case case2 hpc => exact .abandon rfl (.inr (.inl ⟨_, _, hpc⟩))
  case case3 hpc => exact .abandon rfl (.inr (.inr hpc))

end ShutdownStep

/-! ## Label cancellation and handler registration -/

namespace LabelCancelCall

@[simp] theorem goto_pc (c : LabelCancelCall) (pc : LabelCancelPc) : (c.goto pc).pc = pc := rfl

end LabelCancelCall

/-- The rules of `cancel_tasks_by_labels_internal`. -/
inductive LabelCancelStep (cfg : PoolConfig) (sh : Shared σ R) (c : LabelCancelCall) :
    Shared σ R → LabelCancelCall → Prop
  | refuse (hpc : c.pc = .start) (hlabels : c.labels = ∅) :
      LabelCancelStep cfg sh c (sh.unborrow c.clone) (c.goto .returned)
  | start (hpc : c.pc = .start) (hlabels : c.labels ≠ ∅) :
      LabelCancelStep cfg sh c sh (c.goto (.sweep 0 []))
  | sweep {shard tokens found} (hpc : c.pc = .sweep shard tokens)
      (hread : sh.readTokens cfg shard = some found) :
      LabelCancelStep cfg sh c sh (c.goto (.sweep (shard + 1) (tokens ++
        found.filter fun t => ¬ Disjoint (sh.tasks t).core.labels c.labels)))
  | sweepEnd {shard tokens} (hpc : c.pc = .sweep shard tokens)
      (hread : sh.readTokens cfg shard = none) :
      LabelCancelStep cfg sh c sh (c.goto (.cancelAll tokens))
  | cancelTask {t tokens} (hpc : c.pc = .cancelAll (t :: tokens)) :
      LabelCancelStep cfg sh c (sh.modifyTask t Task.cancel) (c.goto (.cancelAll tokens))
  | cancelEnd (hpc : c.pc = .cancelAll []) :
      LabelCancelStep cfg sh c (sh.unborrow c.clone) (c.goto .returned)

theorem LabelCancelStep.of_step {c c' : LabelCancelCall} (h : c.step cfg sh = some (sh', c', sp)) :
    LabelCancelStep cfg sh c sh' c' ∧ sp = none := by
  revert h
  fun_cases LabelCancelCall.step cfg sh c
  all_goals rintro ⟨⟩
  all_goals refine ⟨?_, rfl⟩
  case case1 hpc hlabels => exact .refuse hpc hlabels
  case case2 hpc hlabels => exact .start hpc hlabels
  case case3 hpc found hread _ => exact .sweep hpc hread
  case case4 hpc hread => exact .sweepEnd hpc hread
  case case5 hpc => exact .cancelTask hpc
  case case6 hpc => exact .cancelEnd hpc

/-- The rules of `add_completion_handler`. -/
inductive AddHandlerStep (pid : Nat) (sh : Shared σ R) (c : AddHandlerCall) :
    Shared σ R → AddHandlerCall → Option (Proc R) → Prop
  | init (hpc : c.pc = .init) (hsink : sh.notifier.sink = .unset) :
      AddHandlerStep pid sh c
        { sh with notifier :=
            { sh.notifier with sink := .opened, senders := 1, workerHandle := true } }
        { c with pc := .push } (some (.notifier ⟨false, .recv⟩))
  | initialized (hpc : c.pc = .init) (hsink : sh.notifier.sink ≠ .unset) :
      AddHandlerStep pid sh c sh { c with pc := .push } none
  | push (hpc : c.pc = .push) (hreading : sh.notifier.reading = false) :
      AddHandlerStep pid sh c
        ({ sh with notifier :=
            { sh.notifier with handlers := sh.notifier.handlers ++ [pid] } }.unborrow c.clone)
        { c with pc := .returned } none

theorem AddHandlerStep.of_step {c c' : AddHandlerCall} (h : c.step pid sh = some (sh', c', sp)) :
    AddHandlerStep pid sh c sh' c' sp := by
  revert h
  fun_cases AddHandlerCall.step pid sh c
  case case1 hpc n started hinit =>
    rintro ⟨⟩
    unfold CompletionNotifier.ensureWorkerInitialized at hinit
    split at hinit
    · next hsink =>
      cases hinit
      exact .init hpc hsink
    · next hsink =>
      cases hinit
      exact .initialized hpc hsink
  case case2 => nofun
  case case3 hpc hreading _ =>
    rintro ⟨⟩
    exact .push hpc (by simpa using hreading)
  case case4 => nofun

/-! ## The notification worker -/

namespace NotifierLoop

@[simp] theorem goto_pc (n : NotifierLoop) (pc : NotifierPc) : (n.goto pc).pc = pc := rfl

end NotifierLoop

/-- `NotifierStep b sh n sh' n'`: a step of `run_notification_worker_loop` on signal `b`. A
handler that panics is called like any other, unless its payload panics when it is dropped. -/
inductive NotifierStep (b : Signal) (sh : Shared σ R) (n : NotifierLoop) :
    Shared σ R → NotifierLoop → Prop
  | recv {msg} (hpc : n.pc = .recv) (hmsg : sh.notifier.sent[sh.notifier.taken]? = some msg) :
      NotifierStep b sh n
        { sh with notifier := { sh.notifier with taken := sh.notifier.taken + 1 } }
        (n.goto (.lock msg))
  | skip {msg} (hpc : n.pc = .lock msg) (hhandlers : sh.notifier.handlers = []) :
      NotifierStep b sh n sh (n.goto .recv)
  | lock {msg} (hpc : n.pc = .lock msg) (hhandlers : sh.notifier.handlers ≠ []) :
      NotifierStep b sh n { sh with notifier := { sh.notifier with reading := true } }
        (n.goto (.deliver (msg.publicInfo (sh.tasks msg.core).core) sh.notifier.handlers))
  | closed (hpc : n.pc = .recv) (hmsg : sh.notifier.sent[sh.notifier.taken]? = none)
      (hsenders : sh.notifier.senders = 0) :
      NotifierStep b sh n { sh with notifier := { sh.notifier with workerDone := true } }
        (n.goto .ended)
  | empty (hpc : n.pc = .recv) (hmsg : sh.notifier.sent[sh.notifier.taken]? = none)
      (hsenders : sh.notifier.senders ≠ 0) : NotifierStep b sh n sh (n.goto .token)
  | token (hpc : n.pc = .token) :
      NotifierStep b sh n sh { n with signaled := n.signaled || sh.token, pc := .recv }
  | invoke {info handler rest} (hpc : n.pc = .deliver info (handler :: rest)) :
      NotifierStep b sh n
        { sh with notifier := sh.notifier.invoke handler info } (n.goto (.deliver info rest))
  | delivered {info} (hpc : n.pc = .deliver info []) :
      NotifierStep b sh n { sh with notifier := { sh.notifier with reading := false } }
        (n.goto .recv)
  | unwind {info handler rest} (hb : b = .panic true)
      (hpc : n.pc = .deliver info (handler :: rest)) :
      NotifierStep b sh n
        { sh with notifier :=
            { sh.notifier.invoke handler info with reading := false, workerDone := true } }
        (n.goto .unwound)

theorem NotifierStep.of_step {n n' : NotifierLoop} (h : n.step sh = some (sh', n', sp)) :
    NotifierStep .step sh n sh' n' ∧ sp = none := by
  revert h
  fun_cases NotifierLoop.step sh n
  all_goals rintro ⟨⟩
  all_goals refine ⟨?_, rfl⟩
  case case1 hpc msg hmsg => exact .recv hpc hmsg
  case case2 hpc hmsg hsenders => exact .closed hpc hmsg hsenders
  case case3 hpc hmsg hsenders => exact .empty hpc hmsg hsenders
  case case4 hpc => exact .token hpc
  case case5 hpc hhandlers => exact .skip hpc hhandlers
  case case6 hpc hhandlers => exact .lock hpc hhandlers
  case case7 hpc => exact .invoke hpc
  case case8 hpc => exact .delivered hpc

theorem NotifierStep.of_panicked {n n' : NotifierLoop} {dropPanics : Bool}
    (h : n.panicked sh dropPanics = some (sh', n', sp)) :
    NotifierStep (.panic dropPanics) sh n sh' n' ∧ sp = none := by
  revert h
  fun_cases NotifierLoop.panicked sh n dropPanics
  case case1 hpc _ hdrop =>
    rintro ⟨⟩
    exact ⟨.unwind (congrArg Signal.panic hdrop) hpc, rfl⟩
  case case2 hpc _ _ =>
    rintro ⟨⟩
    exact ⟨.invoke hpc, rfl⟩
  case case3 => rintro ⟨⟩

end FuturesOrchestra
