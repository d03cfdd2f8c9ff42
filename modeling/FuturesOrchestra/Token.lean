import FuturesOrchestra.Shared
import FuturesOrchestra.Lib.Notify

/-!
# The cancellation token

`CancelState::cancel` and `CancelState::cancelled` on one token, in atomic steps, for any
number of calls of both. The pool reads its tokens by their flag; here stands what lets it do
so, the wait for the flag inside a `select!`.
-/

namespace FuturesOrchestra

open Interleaving

/-- A `CancelState` with its `Notify`. -/
structure TokenState (ν : Type) where
  state : CancelState
  notify : ν

/-- Where a call of `cancelled` stands. It is suspended at `parked` only. -/
inductive WaiterPc
  | check
  | enable
  | recheck
  | parked
  | returned
  | dropped
deriving DecidableEq, Repr

/-- Where a call of `cancel` stands. -/
inductive CancellerPc
  | store
  | notify
  | returned
deriving DecidableEq, Repr

inductive TokenProc
  | waiter (pc : WaiterPc)
  | canceller (pc : CancellerPc)
deriving DecidableEq, Repr

variable {ν : Type} [Notify ν]

/-- `CancelState::cancelled`. The `notified` future of process `pid` is dropped at the end of
each iteration of the loop. -/
def WaiterPc.step (pid : Nat) (sh : TokenState ν) : WaiterPc → Option (TokenState ν × WaiterPc)
  | .check => some (sh, if sh.state.cancelled then .returned else .enable)
  | .enable => some ({ sh with notify := Notify.enable pid sh.notify }, .recheck)
  | .recheck =>
    if sh.state.cancelled then
      some ({ sh with notify := Notify.forget pid sh.notify }, .returned)
    else some (sh, .parked)
  | .parked =>
    if Notify.woken sh.notify pid then
      some ({ sh with notify := Notify.forget pid sh.notify }, .check)
    else none
  | .returned | .dropped => none

/-- The future of the call is dropped while it is suspended. -/
def WaiterPc.abandon (pid : Nat) (sh : TokenState ν) : WaiterPc → Option (TokenState ν × WaiterPc)
  | .parked => some ({ sh with notify := Notify.forget pid sh.notify }, .dropped)
  | _ => none

/-- `CancelState::cancel`. -/
def CancellerPc.step (sh : TokenState ν) : CancellerPc → Option (TokenState ν × CancellerPc)
  | .store => some ({ sh with state := { sh.state with cancelled := true } }, .notify)
  | .notify => some ({ sh with notify := Notify.notifyWaiters sh.notify }, .returned)
  | .returned => none

def TokenProc.run : Signal → Nat → TokenState ν → TokenProc →
    Option (TokenState ν × TokenProc × Option TokenProc)
  | .step, pid, sh, .waiter pc => (pc.step pid sh).map fun r => (r.1, .waiter r.2, none)
  | .abandon, pid, sh, .waiter pc => (pc.abandon pid sh).map fun r => (r.1, .waiter r.2, none)
  | .step, _, sh, .canceller pc => (pc.step sh).map fun r => (r.1, .canceller r.2, none)
  | _, _, _, _ => none

/-- What the outside can do with a token: wait for it, or cancel it. -/
inductive TokenCall
  | cancelled
  | cancel

def TokenCall.enter : TokenCall → TokenProc
  | .cancelled => .waiter .check
  | .cancel => .canceller .store

/-- The runs of a token. -/
def tokenMachine (ν : Type) [Notify ν] :
    Machine (Threads (TokenState ν) TokenProc) (Event Signal TokenCall) :=
  Program.machine ⟨TokenProc.run, fun call sh => some (sh, some call.enter)⟩
    ⟨⟨⟨false, false⟩, Notify.new⟩, []⟩

end FuturesOrchestra
