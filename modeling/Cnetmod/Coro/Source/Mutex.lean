import Mathlib.Data.List.Basic

/-!
# Coroutine mutex

`mutex.cppm` and `mutex_impl.cpp`. A state word that is read and written atomically, and
a queue of waiters under a lock of its own. Every atomic access to the word is one step;
what a coroutine does under the queue lock is cut at each access, so that the accesses of
others, which need no lock, come in between.
-/
namespace Cnetmod.Coro

/-- The values of `state_`. -/
inductive MutexWord where
  | unlocked | locked | contended
  deriving DecidableEq

/-- Where the holder of the queue lock is. -/
inductive MutexSection where
  /-- In `await_suspend`, before the exchange. -/
  | suspending (c : Nat)
  /-- In `await_suspend`, after the exchange has seen an owner. -/
  | queueing (c : Nat)
  /-- In `unlock_contended`, before it looks at the queue. -/
  | handing (c : Nat)
  /-- In `unlock_contended`, with the first waiter in hand. -/
  | storing (c waiter : Nat)

/-- The mutex and the coroutines that use it, each known by a number. -/
structure AsyncMutex where
  word : MutexWord := .unlocked
  queue : List Nat := []
  queueLock : Option MutexSection := none
  /-- `lock` has failed at `await_ready` and comes to `await_suspend` next. -/
  deciding : List Nat := []
  /-- The coroutines that own the mutex and have not called `unlock`. -/
  owners : List Nat := []
  /-- `unlock` has seen the word contended and comes to `unlock_contended` next. -/
  releasing : List Nat := []
  /-- All that were ever queued, in order. -/
  queued : List Nat := []
  /-- All that were ever handed the mutex from the queue, in order. -/
  granted : List Nat := []

namespace AsyncMutex

/-- `try_lock`: one compare-exchange. -/
def tryLock (m : AsyncMutex) (c : Nat) : AsyncMutex :=
  if m.word = .unlocked then { m with word := .locked, owners := c :: m.owners } else m

/-- `await_ready` of `lock`. -/
def awaitReady (m : AsyncMutex) (c : Nat) : AsyncMutex :=
  if m.word = .unlocked then m.tryLock c else { m with deciding := c :: m.deciding }

/-- `await_suspend` takes the queue lock. -/
def awaitSuspend (m : AsyncMutex) (c : Nat) : Option AsyncMutex :=
  if m.queueLock = none ∧ c ∈ m.deciding then
    some { m with queueLock := some (.suspending c), deciding := m.deciding.erase c }
  else none

/-- The exchange of `await_suspend`. -/
def exchangeContended (m : AsyncMutex) : Option AsyncMutex :=
  match m.queueLock with
  | some (.suspending c) =>
    if m.word = .unlocked then some { m with word := .contended, owners := c :: m.owners, queueLock := none }
    else some { m with word := .contended, queueLock := some (.queueing c) }
  | _ => none

/-- The rest of `await_suspend`. -/
def enqueue (m : AsyncMutex) : Option AsyncMutex :=
  match m.queueLock with
  | some (.queueing c) => some { m with queue := m.queue ++ [c], queued := m.queued ++ [c], queueLock := none }
  | _ => none

/-- `unlock` by an owner: one compare-exchange. -/
def unlock (m : AsyncMutex) (c : Nat) : Option AsyncMutex :=
  if c ∈ m.owners then
    if m.word = .locked then some { m with word := .unlocked, owners := m.owners.erase c }
    else some { m with owners := m.owners.erase c, releasing := c :: m.releasing }
  else none

/-- `unlock_contended` takes the queue lock. -/
def unlockContended (m : AsyncMutex) (c : Nat) : Option AsyncMutex :=
  if m.queueLock = none ∧ c ∈ m.releasing then
    some { m with queueLock := some (.handing c), releasing := m.releasing.erase c }
  else none

/-- `unlock_contended` looks at the queue: without a waiter it frees the mutex. -/
def takeWaiter (m : AsyncMutex) : Option AsyncMutex :=
  match m.queueLock with
  | some (.handing c) =>
    match m.queue with
    | [] => some { m with word := .unlocked, queueLock := none }
    | waiter :: queue => some { m with queue, queueLock := some (.storing c waiter) }
  | _ => none

/-- The end of `unlock_contended`: the word says whether there are more waiters, and the waiter is resumed. -/
def handOver (m : AsyncMutex) : Option AsyncMutex :=
  match m.queueLock with
  | some (.storing _ waiter) => some { m with
      word := if m.queue = [] then .locked else m.word
      owners := waiter :: m.owners
      granted := m.granted ++ [waiter]
      queueLock := none }
  | _ => none

end AsyncMutex

end Cnetmod.Coro
