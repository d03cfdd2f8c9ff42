import FuturesOrchestra.Pool

/-!
# What a step of a submit call can be

`SubmitStep` lists the steps of `FuturePoolManager::submit`, of
`FuturePoolManagerRlxd::submit_inner` and of the two producers as rules, one
rule for each outcome of a program point, guards included. The invariants are
proved rule by rule; the functions are unfolded here only.
-/

namespace FuturesOrchestra

open Interleaving

variable {σ R : Type} {pid : Nat}
  {sh sh' : Shared σ R} {c c' : SubmitCall R} {sp : Option (Proc R)}

@[simp] theorem Shared.dropTask_eq (sh : Shared σ R) (t : Nat) :
    sh.dropTask t = sh.modifyTask t Task.dropSender := rfl

/-- The state after a lookup of the completion sender. -/
@[simps] def Shared.lookedUp (sh : Shared σ R) : Shared σ R :=
  { sh with notifier := sh.notifier.lookup.1 }

theorem Shared.lookupSender_eq {found : Bool} (h : sh.lookupSender = (sh', found)) :
    sh' = sh.lookedUp ∧ found = sh.notifier.lookup.2 := by
  cases h
  exact ⟨rfl, rfl⟩

namespace SubmitCall

@[simp] theorem goto_pc (c : SubmitCall R) (pc : SubmitPc) : (c.goto pc).pc = pc := rfl

@[simp] theorem goto_clone (c : SubmitCall R) (pc : SubmitPc) : (c.goto pc).clone = c.clone := rfl

/-- The call has failed with `e`; its task was dropped. -/
def failed (c : SubmitCall R) (e : PoolError) (unwound : Bool) : SubmitCall R :=
  { c with pc := .returned (.error e), unwound := unwound }

/-- The future of the call was dropped. -/
def stopped (c : SubmitCall R) (unwound : Bool) : SubmitCall R :=
  { c with pc := .abandoned, unwound := unwound }

@[simp] theorem failed_pc (c : SubmitCall R) (e : PoolError) (unwound : Bool) :
    (c.failed e unwound).pc = .returned (.error e) := rfl

@[simp] theorem stopped_pc (c : SubmitCall R) (unwound : Bool) :
    (c.stopped unwound).pc = .abandoned := rfl

end SubmitCall

/-- The state after the call has dropped its task and the task's receiver. -/
abbrev Shared.withdraw (sh : Shared σ R) (c : SubmitCall R) (t : Nat) : Shared σ R :=
  ((sh.modifyTask t Task.dropSender).modifyTask t Task.dropReceiver).unborrow c.clone

variable [Semaphore σ]

/-- `SubmitStep kind pid sh c sh' c' sp`: a step of a submit call of process
`pid` from `c` to `c'` that changes the shared state from `sh` to `sh'` and
starts `sp`. -/
inductive SubmitStep (kind : PoolKind) (pid : Nat) (sh : Shared σ R) (c : SubmitCall R) :
    Shared σ R → SubmitCall R → Option (Proc R) → Prop
  | checkToken (hpc : c.pc = .checkToken) (htoken : sh.token = false) :
      SubmitStep kind pid sh c sh (c.goto .checkClosed) none
  | checkClosed (hpc : c.pc = .checkClosed) (hclosed : sh.queueClosed = false) :
      SubmitStep kind pid sh c sh (c.goto .create) none
  | refuse (hpc : c.pc = .checkToken ∨ c.pc = .checkClosed) :
      SubmitStep kind pid sh c (sh.unborrow c.clone)
        (c.goto (.returned (.error .poolShuttingDown))) none
  | create (hkind : kind = .strict) (hpc : c.pc = .create) :
      SubmitStep kind pid sh c (sh.createTask c.labels c.future)
        (c.goto (.sendToken sh.nextTaskId)) none
  | createScan (hkind : kind = .rlxd) (hpc : c.pc = .create) :
      SubmitStep kind pid sh c (sh.createTask c.labels c.future)
        (c.goto (.scan sh.nextTaskId 0 0)) none
  | scan {t lane queued l} (hpc : c.pc = .scan t lane queued) (hlane : sh.lanes[lane]? = some l) :
      SubmitStep kind pid sh c sh (c.goto (.scan t (lane + 1) (queued + l.items.length))) none
  | scanEmpty {t lane} (hpc : c.pc = .scan t lane 0) (hlane : sh.lanes[lane]? = none) :
      SubmitStep kind pid sh c sh (c.goto (.tryAcquire t)) none
  | scanQueued {t lane queued} (hpc : c.pc = .scan t lane queued) (hqueued : queued ≠ 0) :
      SubmitStep kind pid sh c sh (c.goto (.sendToken t)) none
  | acquired {t gate} (hkind : kind = .rlxd) (hpc : c.pc = .tryAcquire t)
      (hgate : Semaphore.tryAcquire sh.concurrencyGate = some gate) :
      SubmitStep kind pid sh c { sh with concurrencyGate := gate } (c.goto (.route t)) none
  | notAcquired {t} (hpc : c.pc = .tryAcquire t) :
      SubmitStep kind pid sh c sh (c.goto (.sendToken t)) none
  | route {t} (hkind : kind = .rlxd) (hpc : c.pc = .route t) :
      SubmitStep kind pid sh c sh.fetchAddLane
        (c.goto (.insertCount t (sh.nextLane % sh.shards.length))) none
  | insertCount {t shard r} (hkind : kind = .rlxd) (hpc : c.pc = .insertCount t shard)
      (hshard : sh.shards[shard]? = some r) :
      SubmitStep kind pid sh c (sh.setShard shard r.count) (c.goto (.insert t shard)) none
  | insert {t shard r} (hkind : kind = .rlxd) (hpc : c.pc = .insert t shard)
      (hshard : sh.shards[shard]? = some r) :
      SubmitStep kind pid sh c (sh.setShard shard (r.store sh.isFinished t))
        (c.goto (.lookup t shard)) none
  | lookup {t shard} (hkind : kind = .rlxd) (hpc : c.pc = .lookup t shard) :
      SubmitStep kind pid sh c sh.lookedUp (c.goto (.spawn t shard sh.notifier.lookup.2)) none
  | spawn {t shard sender} (hkind : kind = .rlxd) (hpc : c.pc = .spawn t shard sender) :
      SubmitStep kind pid sh c ((sh.modifyTask t Task.accept).unborrow c.clone)
        (c.goto (.returned (.ok t))) (some (.wrapper ⟨t, shard, sender, .poll⟩))
  | sendToken {t} (hpc : c.pc = .sendToken t) (htoken : sh.token = false) :
      SubmitStep kind pid sh c sh (c.goto (.sendClosed t)) none
  | sendClosed {t} (hkind : kind = .strict) (hpc : c.pc = .sendClosed t)
      (hclosed : sh.queueClosed = false) :
      SubmitStep kind pid sh c sh (c.goto (.selectToken t)) none
  | sendClosedRlxd {t} (hkind : kind = .rlxd) (hpc : c.pc = .sendClosed t)
      (hclosed : sh.queueClosed = false) :
      SubmitStep kind pid sh c sh (c.goto (.selectAcquire t)) none
  | reject {t} (hpc : c.pc = .sendToken t ∨ c.pc = .sendClosed t)
      (hdown : sh.token = true ∨ sh.queueClosed = true) :
      SubmitStep kind pid sh c (sh.withdraw c t)
        (c.failed .poolShuttingDown (sh.tasks t).future.dropPanics) none
  | selectToken {t} (hpc : c.pc = .selectToken t) (htoken : sh.token = false) :
      SubmitStep kind pid sh c sh (c.goto (.selectAcquire t)) none
  | selectCancelled {t} (hpc : c.pc = .selectToken t) (htoken : sh.token = true) :
      SubmitStep kind pid sh c
        ({ sh with queueGate := Semaphore.dropAcquire pid sh.queueGate }.withdraw c t)
        (c.failed .poolShuttingDown (sh.tasks t).future.dropPanics) none
  | selectPending {t gate} (hpc : c.pc = .selectAcquire t)
      (hgate : Semaphore.pollAcquire pid sh.queueGate = (gate, false)) :
      SubmitStep kind pid sh c { sh with queueGate := gate } (c.goto (.selectToken t)) none
  | selectAcquired {t gate} (hkind : kind = .strict) (hpc : c.pc = .selectAcquire t)
      (hgate : Semaphore.pollAcquire pid sh.queueGate = (gate, true)) :
      SubmitStep kind pid sh c { sh with queueGate := gate } (c.goto (.push t 0)) none
  | selectAcquiredRlxd {t gate} (hkind : kind = .rlxd) (hpc : c.pc = .selectAcquire t)
      (hgate : Semaphore.pollAcquire pid sh.queueGate = (gate, true)) :
      SubmitStep kind pid sh c { sh with queueGate := gate } (c.goto (.sendRoute t)) none
  | sendRoute {t} (hkind : kind = .rlxd) (hpc : c.pc = .sendRoute t) :
      SubmitStep kind pid sh c sh.fetchAddLane
        (c.goto (.push t (sh.nextLane % sh.lanes.length))) none
  | push {t lane l} (hpc : c.pc = .push t lane) (hlane : sh.lanes[lane]? = some l)
      (hrecv : l.receiver = true) :
      SubmitStep kind pid sh c
        (((sh.setLane lane { l with items := l.items ++ [t] }).modifyTask t Task.accept).unborrow
          c.clone)
        (c.goto (.returned (.ok t))) none
  | pushFails {t lane l} (hpc : c.pc = .push t lane) (hlane : sh.lanes[lane]? = some l)
      (hrecv : l.receiver = false) :
      SubmitStep kind pid sh c (sh.releaseSlot.releaseSlot.withdraw c t)
        (c.failed .queueSendChannelClosed (sh.tasks t).future.dropPanics) none
  | abandon {t} (hpc : c.pc = .selectToken t ∨ c.pc = .selectAcquire t) :
      SubmitStep kind pid sh c
        ({ sh with queueGate := Semaphore.dropAcquire pid sh.queueGate }.withdraw c t)
        (c.stopped (sh.tasks t).future.dropPanics) none

namespace SubmitStep

variable {kind : PoolKind}

theorem of_enqueue {t lane : Nat} (hpc : c.pc = .push t lane) (h : c.enqueue sh t lane = some (sh', c', sp)) :
    SubmitStep kind pid sh c sh' c' sp := by
  revert h
  fun_cases SubmitCall.enqueue sh c t lane with
  | case1 => nofun
  | case2 l hlane hrecv => rintro ⟨⟩; exact .push hpc hlane hrecv
  | case3 l hlane hrecv => rintro ⟨⟩; exact .pushFails hpc hlane (by simpa using hrecv)

theorem of_send (h : QueueProducer.send pid sh c = some (sh', c', sp)) :
    SubmitStep .strict pid sh c sh' c' sp := by
  revert h
  fun_cases QueueProducer.send pid sh c with
  | case1 t hpc htoken => rintro ⟨⟩; exact .reject (.inl hpc) (.inl htoken)
  | case2 t hpc htoken => rintro ⟨⟩; exact .sendToken hpc (by simpa using htoken)
  | case3 t hpc hclosed => rintro ⟨⟩; exact .reject (.inr hpc) (.inr hclosed)
  | case4 t hpc hclosed => rintro ⟨⟩; exact .sendClosed rfl hpc (by simpa using hclosed)
  | case5 t hpc htoken => rintro ⟨⟩; exact .selectCancelled hpc htoken
  | case6 t hpc htoken => rintro ⟨⟩; exact .selectToken hpc (by simpa using htoken)
  | case7 t hpc gate ready hgate =>
    rintro ⟨⟩
    cases ready
    · exact .selectPending hpc hgate
    · exact .selectAcquired rfl hpc hgate
  | case8 t lane hpc => exact of_enqueue hpc
  | case9 => nofun

theorem of_sendRlxd (h : RlxdQueueProducer.send pid sh c = some (sh', c', sp)) :
    SubmitStep .rlxd pid sh c sh' c' sp := by
  revert h
  fun_cases RlxdQueueProducer.send pid sh c with
  | case1 t hpc htoken => rintro ⟨⟩; exact .reject (.inl hpc) (.inl htoken)
  | case2 t hpc htoken => rintro ⟨⟩; exact .sendToken hpc (by simpa using htoken)
  | case3 t hpc hclosed => rintro ⟨⟩; exact .reject (.inr hpc) (.inr hclosed)
  | case4 t hpc hclosed => rintro ⟨⟩; exact .sendClosedRlxd rfl hpc (by simpa using hclosed)
  | case5 t hpc gate ready hgate =>
    rintro ⟨⟩
    cases ready
    · exact .selectPending hpc hgate
    · exact .selectAcquiredRlxd rfl hpc hgate
  | case6 t hpc htoken => rintro ⟨⟩; exact .selectCancelled hpc htoken
  | case7 t hpc htoken => rintro ⟨⟩; exact .selectToken hpc (by simpa using htoken)
  | case8 t hpc => rintro ⟨⟩; exact .sendRoute rfl hpc
  | case9 t lane hpc => exact of_enqueue hpc
  | case10 => nofun

theorem of_submit (h : FuturePoolManager.submit pid sh c = some (sh', c', sp)) :
    SubmitStep .strict pid sh c sh' c' sp := by
  revert h
  fun_cases FuturePoolManager.submit pid sh c with
  | case1 hpc => rintro ⟨⟩; exact .refuse (.inl hpc)
  | case2 hpc htoken => rintro ⟨⟩; exact .checkToken hpc (by simpa using htoken)
  | case3 hpc => rintro ⟨⟩; exact .refuse (.inr hpc)
  | case4 hpc hclosed => rintro ⟨⟩; exact .checkClosed hpc (by simpa using hclosed)
  | case5 hpc => rintro ⟨⟩; exact .create rfl hpc
  | case6 => exact of_send

theorem of_submitInner (h : FuturePoolManagerRlxd.submitInner pid sh c = some (sh', c', sp)) :
    SubmitStep .rlxd pid sh c sh' c' sp := by
  revert h
  fun_cases FuturePoolManagerRlxd.submitInner pid sh c
  case case17 => exact of_sendRlxd
  all_goals rintro ⟨⟩
  case case1 hpc _ => exact .refuse (.inl hpc)
  case case2 hpc htoken => exact .checkToken hpc (by simpa using htoken)
  case case3 hpc _ => exact .refuse (.inr hpc)
  case case4 hpc hclosed => exact .checkClosed hpc (by simpa using hclosed)
  case case5 hpc => exact .createScan rfl hpc
  case case6 hpc l hlane => exact .scan hpc hlane
  case case7 t lane queued hpc hlane =>
    split
    · next hz => exact .scanEmpty (hz ▸ hpc) hlane
    · next hz => exact .scanQueued hpc hz
  case case8 hpc gate hgate => exact .acquired rfl hpc hgate
  case case9 hpc _ => exact .notAcquired hpc
  case case10 hpc => exact .route rfl hpc
  case case12 hpc r hshard => exact .insertCount rfl hpc hshard
  case case14 hpc r hshard => exact .insert rfl hpc hshard
  case case15 hpc found hlookup =>
    obtain ⟨rfl, rfl⟩ := Shared.lookupSender_eq hlookup
    exact .lookup rfl hpc
  case case16 hpc => exact .spawn rfl hpc

theorem of_abandonAt (h : c.abandonAt pid sh = some (sh', c', sp)) :
    SubmitStep kind pid sh c sh' c' sp := by
  revert h
  fun_cases SubmitCall.abandonAt pid sh c with
  | case1 t hpc => rintro ⟨⟩; exact .abandon (.inl hpc)
  | case2 t hpc => rintro ⟨⟩; exact .abandon (.inr hpc)
  | case3 => nofun

end SubmitStep

end FuturesOrchestra
