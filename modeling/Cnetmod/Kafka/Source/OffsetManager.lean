import Cnetmod.Coding.SortedMap

/-!
# Kafka offset manager

`offset_manager.cpp`, over the keys of the partitions and what is staged for them. A commit
sends all that is staged and waits for the answer.
-/
namespace Cnetmod.Kafka

open Coding (SortedMap)

variable {κ ν : Type} [LinearOrder κ]

structure OffsetManager (κ ν : Type) [LinearOrder κ] where
  staged : SortedMap κ ν := .empty
  /-- The requests of the commits that wait for their answer. -/
  running : List (SortedMap κ ν) := []
  /-- The requests that the broker confirmed. -/
  confirmed : List (SortedMap κ ν) := []
  /-- What was last staged for each partition. -/
  latest : SortedMap κ ν := .empty

namespace OffsetManager

def stage (m : OffsetManager κ ν) (partition : κ) (offset : ν) : OffsetManager κ ν :=
  { m with staged := m.staged.put partition offset, latest := m.latest.put partition offset }

/-- `commit` up to its wait. -/
def commit (m : OffsetManager κ ν) : OffsetManager κ ν := { m with running := m.running ++ [m.staged] }

/-- The end of the `i`-th of the running commits. -/
def answer (m : OffsetManager κ ν) (i : Nat) (ok : Bool) : Option (OffsetManager κ ν) :=
  m.running[i]?.map fun request =>
    let m := { m with running := m.running.eraseIdx i }
    if ok then { m with confirmed := request :: m.confirmed, staged := .empty } else m

end OffsetManager

end Cnetmod.Kafka
