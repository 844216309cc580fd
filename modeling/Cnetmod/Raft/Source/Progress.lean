import Cnetmod.Raft.Source.Configuration

/-!
# Replication progress

`progress.cpp`. The peer table is a vector sorted by id with one slot per peer,
searched with `std::ranges::lower_bound`; here it is looked up by id.
-/
namespace Cnetmod.Raft

inductive ReplicationState where
  | probe | replicate | snapshot
  deriving DecidableEq

structure InflightWindow where
  capacity : Nat := 256
  entries : List Nat := []

namespace InflightWindow

def full (w : InflightWindow) : Bool := w.entries.length ≥ w.capacity

def add (w : InflightWindow) (index : Nat) : InflightWindow :=
  if w.capacity = 0 then w
  else
    let kept := if w.full then w.entries.drop 1 else w.entries
    { w with entries := kept ++ [index] }

def freeTo (w : InflightWindow) (index : Nat) : InflightWindow :=
  { w with entries := w.entries.dropWhile (· ≤ index) }

def reset (w : InflightWindow) : InflightWindow := { w with entries := [] }

end InflightWindow

structure PeerProgress where
  nextIndex : Nat := 1
  matchIndex : Nat := 0
  pendingSnapshot : Nat := 0
  state : ReplicationState := .probe
  recentActive : Bool := false
  inflight : InflightWindow := {}

structure ProgressTracker where
  peers : List (NodeId × PeerProgress) := []

namespace ProgressTracker

/-- `progress_tracker::reset` builds the table afresh. -/
def reset (peers : List NodeId) (nextIndex inflightCapacity : Nat) : ProgressTracker where
  peers := (sortUnique peers).map fun peer =>
    (peer, { nextIndex := nextIndex, inflight := { capacity := inflightCapacity } })

def get (t : ProgressTracker) (peer : NodeId) : Option PeerProgress :=
  (t.peers.find? (·.1 = peer)).map (·.2)

/-- Write through the pointer `get` returned; a missing peer is left alone. -/
def update (t : ProgressTracker) (peer : NodeId) (change : PeerProgress → PeerProgress) : ProgressTracker where
  peers := t.peers.map fun slot => if slot.1 = peer then (slot.1, change slot.2) else slot

def markSent (t : ProgressTracker) (peer : NodeId) (lastIndex : Nat) : ProgressTracker :=
  t.update peer fun p =>
    let p := { p with recentActive := true }
    if lastIndex ≠ 0 ∧ p.state = .replicate then
      { p with nextIndex := max p.nextIndex (lastIndex + 1), inflight := p.inflight.add lastIndex }
    else p

def markReplicated (t : ProgressTracker) (peer : NodeId) (index : Nat) : ProgressTracker :=
  t.update peer fun p =>
    let matchIndex := max p.matchIndex index
    { matchIndex := matchIndex
      nextIndex := max p.nextIndex (matchIndex + 1)
      pendingSnapshot := 0
      state := .replicate
      recentActive := true
      inflight := p.inflight.freeTo index }

/-- Without a conflict index the next probe starts one below the rejected one,
whatever the leader's own log holds there. -/
def markRejected (t : ProgressTracker) (peer : NodeId) (rejectedNextIndex conflictIndex : Nat) :
    ProgressTracker :=
  t.update peer fun p =>
    { p with
      state := .probe
      inflight := p.inflight.reset
      recentActive := true
      nextIndex :=
        if conflictIndex ≠ 0 then conflictIndex
        else if rejectedNextIndex > 1 then rejectedNextIndex - 1 else 1 }

def markSnapshot (t : ProgressTracker) (peer : NodeId) (snapshotIndex : Nat) : ProgressTracker :=
  t.update peer fun p =>
    { p with
      state := .snapshot
      pendingSnapshot := snapshotIndex
      inflight := p.inflight.reset }

end ProgressTracker

end Cnetmod.Raft
