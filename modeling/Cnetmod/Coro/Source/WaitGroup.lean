import Mathlib.Algebra.Group.Nat.Defs
import Mathlib.Algebra.Ring.Int.Defs
import Mathlib.Data.List.Basic

/-!
# Coroutine wait group

`wait_group_impl.cpp`. The counter is changed and read without the lock; the queue is
under the lock. What is done under the lock is cut at each access to the counter. A `wait`
is known by the moment at which it began.
-/
namespace Cnetmod.Coro

structure AsyncWaitGroup where
  /-- `count_`, an `int`. -/
  count : Int := 0
  queue : List Nat := []
  /-- The wait that has the lock and has seen the counter above zero. -/
  holder : Option Nat := none
  /-- The waits that `await_ready` did not let pass and that come to `await_suspend` next. -/
  deciding : List Nat := []
  /-- The calls of `done` that have taken the counter to zero and not the queue yet. -/
  clearing : Nat := 0
  /-- The waits that a `done` took from the queue and has not resumed. -/
  resuming : List Nat := []
  /-- What was added and is not done. -/
  pending : Nat := 0
  /-- The number of steps taken. -/
  now : Nat := 0
  /-- The last moment at which the counter was zero. -/
  zeroAt : Nat := 0
  /-- The waits that completed, each with the last moment before at which the counter was zero. -/
  completed : List (Nat × Nat) := []

namespace AsyncWaitGroup

/-- The value an atomic `int` takes. -/
def toInt32 (value : Int) : Int := value.bmod (2 ^ 32)

def complete (g : AsyncWaitGroup) (w : Nat) : AsyncWaitGroup :=
  { g with completed := (w, g.zeroAt) :: g.completed }

def add (g : AsyncWaitGroup) (n : Nat) : AsyncWaitGroup :=
  { g with count := toInt32 (g.count + n), pending := g.pending + n }

/-- The decrement of `done`, which is not called more often than was added. -/
def done (g : AsyncWaitGroup) : Option AsyncWaitGroup :=
  if g.pending = 0 then none
  else some { g with
    count := toInt32 (g.count - 1)
    pending := g.pending - 1
    clearing := if g.count = 1 then g.clearing + 1 else g.clearing }

/-- The end of `done` under the lock: it takes all waiters. -/
def stealWaiters (g : AsyncWaitGroup) : Option AsyncWaitGroup :=
  if g.clearing = 0 ∨ g.holder ≠ none then none
  else some { g with clearing := g.clearing - 1, queue := [], resuming := g.resuming ++ g.queue }

/-- `done` resumes a waiter it took. -/
def resume (g : AsyncWaitGroup) (w : Nat) : Option AsyncWaitGroup :=
  if w ∈ g.resuming then some ({ g with resuming := g.resuming.erase w }.complete w) else none

def awaitReady (g : AsyncWaitGroup) : AsyncWaitGroup :=
  if g.count ≤ 0 then g.complete g.now else { g with deciding := g.now :: g.deciding }

/-- `await_suspend` takes the lock and reads the counter. -/
def awaitSuspend (g : AsyncWaitGroup) (w : Nat) : Option AsyncWaitGroup :=
  if g.holder = none ∧ w ∈ g.deciding then
    let g := { g with deciding := g.deciding.erase w }
    some (if g.count ≤ 0 then g.complete w else { g with holder := some w })
  else none

/-- The rest of `await_suspend`. -/
def enqueue (g : AsyncWaitGroup) : Option AsyncWaitGroup :=
  g.holder.map fun w => { g with queue := g.queue ++ [w], holder := none }

end AsyncWaitGroup

end Cnetmod.Coro
