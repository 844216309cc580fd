import Mathlib.Algebra.Group.Nat.Defs
import Mathlib.Data.List.Basic

/-!
# Coroutine semaphore

`semaphore_impl.cpp`. Permits are taken without the lock, by a read of the counter and
compare-exchanges, and returned under it. Every access to the counter is one step, with
what follows it up to the next access. `release(count)` is `release()` again and again.
-/
namespace Cnetmod.Coro

inductive AcquirePath where
  | tryAcquire | awaitReady | awaitSuspend
  deriving DecidableEq

/-- A coroutine in one of the loops, with the counter as it last read it. -/
structure AcquireAttempt where
  path : AcquirePath
  c : Nat
  seen : Nat
  deriving DecidableEq

structure AsyncSemaphore where
  /-- `count_`, a `size_t`. -/
  count : Nat
  queue : List Nat := []
  /-- The coroutine in `await_suspend`, which has the lock. -/
  holder : Option Nat := none
  attempts : List AcquireAttempt := []
  /-- `acquire` has failed at `await_ready` and comes to `await_suspend` next. -/
  deciding : List Nat := []
  /-- The permits granted so far, and the steps of `release` made. -/
  granted : Nat := 0
  released : Nat := 0
  /-- All that were ever queued and all that were handed a permit from the queue, in order. -/
  queued : List Nat := []
  handed : List Nat := []

namespace AsyncSemaphore

/-- A loop has read the counter. -/
def look (s : AsyncSemaphore) (path : AcquirePath) (c : Nat) : AsyncSemaphore :=
  if 0 < s.count then { s with attempts := ⟨path, c, s.count⟩ :: s.attempts }
  else match path with
    | .tryAcquire => s
    | .awaitReady => { s with deciding := c :: s.deciding }
    | .awaitSuspend => { s with queue := s.queue ++ [c], queued := s.queued ++ [c], holder := none }

def tryAcquire (s : AsyncSemaphore) (c : Nat) : AsyncSemaphore := s.look .tryAcquire c

def awaitReady (s : AsyncSemaphore) (c : Nat) : AsyncSemaphore := s.look .awaitReady c

/-- `await_suspend` takes the lock and reads the counter. -/
def awaitSuspend (s : AsyncSemaphore) (c : Nat) : Option AsyncSemaphore :=
  if s.holder = none ∧ c ∈ s.deciding then
    some ({ s with deciding := s.deciding.erase c, holder := some c }.look .awaitSuspend c)
  else none

/-- The compare-exchange of a loop, which may fail although the counter is as it was read. -/
def compareExchange (s : AsyncSemaphore) (a : AcquireAttempt) (spurious : Bool) : Option AsyncSemaphore :=
  if a ∈ s.attempts then
    let s := { s with attempts := s.attempts.erase a }
    some (if s.count = a.seen ∧ ¬ spurious then
        { s with
          count := s.count - 1
          granted := s.granted + 1
          holder := if a.path = .awaitSuspend then none else s.holder }
      else s.look a.path a.c)
  else none

/-- `release()`: to the first waiter, else to the counter. -/
def release (s : AsyncSemaphore) : Option AsyncSemaphore :=
  if s.holder = none then
    match s.queue with
    | [] => some { s with count := (s.count + 1) % 2 ^ 64, released := s.released + 1 }
    | c :: queue => some { s with
        queue, handed := s.handed ++ [c], granted := s.granted + 1, released := s.released + 1 }
  else none

end AsyncSemaphore

end Cnetmod.Coro
