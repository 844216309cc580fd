import Mathlib.Algebra.Group.Nat.Defs
import Mathlib.Algebra.Ring.Int.Defs
import Mathlib.Data.List.Basic

/-!
# Coroutine read-write lock

`shared_mutex_impl.cpp`: each function is one section under the internal lock.
`await_ready` and `await_suspend` are two sections, and a coroutine stands in one of the
`deciding` lists between them. A coroutine that holds the lock several times stands in
`readers` as often. The counter is an `int`, taken to wrap where it overflows.
-/
namespace Cnetmod.Coro

structure AsyncSharedMutex where
  /-- `state_`: the number of readers, or `-1`. -/
  state : Int := 0
  writeQueue : List Nat := []
  readQueue : List Nat := []
  decidingShared : List Nat := []
  decidingExclusive : List Nat := []
  readers : List Nat := []
  writers : List Nat := []

namespace AsyncSharedMutex

/-- The value an `int` of 32 bits takes. -/
def wrapInt (value : Int) : Int := value.bmod (2 ^ 32)

/-- The fast path of `lock_shared`. -/
def sharedFree (rw : AsyncSharedMutex) : Bool := decide (0 ≤ rw.state) && rw.writeQueue.isEmpty

def takeShared (rw : AsyncSharedMutex) (c : Nat) : AsyncSharedMutex :=
  { rw with state := wrapInt (rw.state + 1), readers := c :: rw.readers }

def takeExclusive (rw : AsyncSharedMutex) (c : Nat) : AsyncSharedMutex :=
  { rw with state := -1, writers := c :: rw.writers }

def sharedAwaitReady (rw : AsyncSharedMutex) (c : Nat) : AsyncSharedMutex :=
  if rw.sharedFree then rw.takeShared c else { rw with decidingShared := c :: rw.decidingShared }

def sharedAwaitSuspend (rw : AsyncSharedMutex) (c : Nat) : Option AsyncSharedMutex :=
  if c ∈ rw.decidingShared then
    let rw := { rw with decidingShared := rw.decidingShared.erase c }
    some (if rw.sharedFree then rw.takeShared c else { rw with readQueue := rw.readQueue ++ [c] })
  else none

def awaitReady (rw : AsyncSharedMutex) (c : Nat) : AsyncSharedMutex :=
  if rw.state = 0 then rw.takeExclusive c else { rw with decidingExclusive := c :: rw.decidingExclusive }

def awaitSuspend (rw : AsyncSharedMutex) (c : Nat) : Option AsyncSharedMutex :=
  if c ∈ rw.decidingExclusive then
    let rw := { rw with decidingExclusive := rw.decidingExclusive.erase c }
    some (if rw.state = 0 then rw.takeExclusive c else { rw with writeQueue := rw.writeQueue ++ [c] })
  else none

def tryLock (rw : AsyncSharedMutex) (c : Nat) : AsyncSharedMutex := if rw.state = 0 then rw.takeExclusive c else rw

/-- `unlock_shared` by a reader: the last one hands the lock to the first writer. -/
def unlockShared (rw : AsyncSharedMutex) (c : Nat) : Option AsyncSharedMutex :=
  if c ∈ rw.readers then
    let rw := { rw with state := wrapInt (rw.state - 1), readers := rw.readers.erase c }
    match rw.writeQueue with
    | waiter :: writeQueue => some (if rw.state = 0 then { rw with writeQueue }.takeExclusive waiter else rw)
    | [] => some rw
  else none

/-- `unlock` by a writer: the next writer, else all readers that wait, else nobody has the lock. -/
def unlock (rw : AsyncSharedMutex) (c : Nat) : Option AsyncSharedMutex :=
  if c ∈ rw.writers then
    let rw := { rw with writers := rw.writers.erase c }
    match rw.writeQueue, rw.readQueue with
    | waiter :: writeQueue, _ => some { rw with writeQueue, writers := waiter :: rw.writers }
    | [], [] => some { rw with state := 0 }
    | [], waiters =>
      some { rw with state := wrapInt waiters.length, readQueue := [], readers := waiters ++ rw.readers }
  else none

end AsyncSharedMutex

end Cnetmod.Coro
