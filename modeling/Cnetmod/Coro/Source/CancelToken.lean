/-!
# Cancel token

`cancel_impl.cpp` without `reset` and the platform callbacks. Every access to an atomic
variable is one step; what is done under the latch is one step, too.
-/
namespace Cnetmod.Coro

inductive CancellationReason where
  | none | callerCancelled | deadlineExceeded
  deriving DecidableEq

/-- What happens to registrations: `notify` is called, `complete_callback` returns true, or `finish_callback` retires one
that was not notified. -/
inductive CallbackEvent where
  | registered | notified | completed | retired

structure CancelToken where
  reason : CancellationReason := .none
  cancelled : Bool := false
  dispatched : Bool := false
  /-- `callback_operation_`. -/
  operation : Option Nat := none
  /-- Whether `callback_notify_` is set. -/
  notify : Bool := false
  callbackMode : Bool := false
  /-- The calls that have set the reason and not the flag yet. -/
  publishing : Nat := 0
  /-- The calls of `dispatch_cancel` that have seen the flag. -/
  entering : Nat := 0
  /-- Those that come to `dispatch_callback`. -/
  dispatching : Nat := 0
  events : List CallbackEvent := []

namespace CancelToken

/-- The first step of `request_cancel` and of `cancel_due_to_deadline`. -/
def requestCancel (t : CancelToken) (reason : CancellationReason) : CancelToken :=
  if t.reason = .none then { t with reason, publishing := t.publishing + 1 } else t

def publish (t : CancelToken) : Option CancelToken :=
  if t.publishing = 0 then none else some { t with cancelled := true, publishing := t.publishing - 1 }

/-- `dispatch_cancel` reads the flag. -/
def dispatchCancel (t : CancelToken) : CancelToken := if t.cancelled then { t with entering := t.entering + 1 } else t

/-- It exchanges `cancel_dispatched_`. -/
def exchangeDispatched (t : CancelToken) : Option CancelToken :=
  if t.entering = 0 then none
  else
    let t := { t with entering := t.entering - 1 }
    some (if t.dispatched then t else { t with dispatched := true, dispatching := t.dispatching + 1 })

def dispatchCallback (t : CancelToken) : Option CancelToken :=
  if t.dispatching = 0 then none
  else
    let t := { t with dispatching := t.dispatching - 1 }
    some (if t.callbackMode ∧ t.operation ≠ none ∧ t.notify then { t with notify := false, events := .notified :: t.events } else t)

def registerCallback (t : CancelToken) (operation : Nat) : Bool × CancelToken :=
  if t.cancelled then (false, t)
  else (true, { t with callbackMode := true, operation, notify := true, events := .registered :: t.events })

/-- The end of a registration. -/
def clear (t : CancelToken) : CancelToken := { t with operation := none, notify := false, callbackMode := false }

def completeCallback (t : CancelToken) (operation : Nat) : Bool × CancelToken :=
  if t.operation ≠ some operation ∨ ¬ t.notify then (false, t)
  else (true, { t.clear with events := .completed :: t.events })

def finishCallback (t : CancelToken) (operation : Nat) : CancelToken :=
  if t.operation ≠ some operation then t
  else { t.clear with events := if t.notify then .retired :: t.events else t.events }

end CancelToken

end Cnetmod.Coro
