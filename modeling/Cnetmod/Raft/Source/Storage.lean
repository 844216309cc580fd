import Mathlib.Data.List.TakeWhile
import Cnetmod.Raft.Source.Configuration

/-!
# Log storage

`raft_memory_store.cpp` and the interface of `storage.cppm`. The entry vector is
kept in index order by every write, which is what lets the store search it with
`std::ranges::lower_bound`; the order is a field of the store.

`RaftStorage` is the store a node is handed: the same data, with a script that
makes chosen writes throw. The head of `faults` is consumed by the next write,
`some` makes it throw before it changes anything, an exhausted script lets every
write succeed. Reads never throw.
-/
namespace Cnetmod.Raft

open List

def InIndexOrder (es : List LogEntry) : Prop := es.Pairwise (·.index ≤ ·.index)

lemma InIndexOrder.nil : InIndexOrder [] := List.Pairwise.nil

structure MemoryStore where
  state : HardState := {}
  snapshot : SnapshotMetadata := {}
  entries : List LogEntry := []
  ordered : InIndexOrder entries := by exact InIndexOrder.nil

/-- `std::ranges::lower_bound` on the index: offset of the first entry that is
not below `index`. -/
def lowerBoundOffset (es : List LogEntry) (index : Nat) : Nat :=
  (es.takeWhile (·.index < index)).length

namespace MemoryStore

def loadHardState (st : MemoryStore) : HardState := st.state
def saveHardState (st : MemoryStore) (s : HardState) : MemoryStore := { st with state := s }
def loadSnapshotMetadata (st : MemoryStore) : SnapshotMetadata := st.snapshot

def saveSnapshotMetadata (st : MemoryStore) (m : SnapshotMetadata) : MemoryStore :=
  { st with snapshot := m }

def firstLogIndex (st : MemoryStore) : Nat :=
  match st.entries.head? with
  | none => st.snapshot.lastIncludedIndex + 1
  | some e => e.index

def lastLogIndex (st : MemoryStore) : Nat :=
  match st.entries.getLast? with
  | none => st.snapshot.lastIncludedIndex
  | some e => e.index

def findOffset (st : MemoryStore) (index : Nat) : Option Nat :=
  let pos := lowerBoundOffset st.entries index
  if st.entries[pos]?.any (·.index = index) then some pos else none

def entryAt (st : MemoryStore) (index : Nat) : Option LogEntry :=
  (st.findOffset index).bind (st.entries[·]?)

/-- Term 0 stands for "no such entry" as well as for index 0. -/
def termAt (st : MemoryStore) (index : Nat) : Nat :=
  if index = 0 then 0
  else if index = st.snapshot.lastIncludedIndex then st.snapshot.lastIncludedTerm
  else match (st.findOffset index).bind (st.entries[·]?) with
    | some e => e.term
    | none => 0

lemma entryAt_eq (st : MemoryStore) (i : Nat) :
    st.entryAt i = st.entries[lowerBoundOffset st.entries i]?.filter (·.index = i) := by
  unfold entryAt findOffset
  dsimp only
  cases hf : st.entries[lowerBoundOffset st.entries i]? with
  | none => simp
  | some e => by_cases hs : e.index = i <;> simp [hs, hf, Option.filter]

def entriesFrom (st : MemoryStore) (first : Nat) (maxEntries : Nat) : List LogEntry :=
  (st.entries.drop (lowerBoundOffset st.entries first)).take maxEntries

lemma index_le_lastLogIndex (st : MemoryStore) (e : LogEntry) (hm : e ∈ st.entries) : e.index ≤ st.lastLogIndex := by
  unfold lastLogIndex
  cases split : st.entries.getLast? with
  | none => simp [getLast?_eq_none_iff.mp split] at hm
  | some last =>
    obtain ⟨init, hs⟩ := getLast?_eq_some_iff.mp split
    have ho := st.ordered
    rw [hs] at hm
    rw [InIndexOrder, hs, pairwise_append] at ho
    rcases mem_append.mp hm with he | hf
    · exact ho.2.2 e he last (by simp)
    · rw [mem_singleton.mp hf]

variable {e : LogEntry}

/-- What `truncate_suffix` leaves stays below the cut. -/
lemma below_of_mem_take_lowerBound {es : List LogEntry} (hm : e ∈ es.take (lowerBoundOffset es i)) : e.index < i := by
  rw [lowerBoundOffset, ← prefix_iff_eq_take.mp <| takeWhile_prefix _] at hm
  simpa using mem_takeWhile_imp hm

def truncatePrefix (st : MemoryStore) (firstKept : Nat) : MemoryStore :=
  { st with
    entries := st.entries.drop (lowerBoundOffset st.entries firstKept)
    ordered := st.ordered.sublist (drop_sublist _ _) }

def truncateSuffix (st : MemoryStore) (firstRemoved : Nat) : MemoryStore :=
  if firstRemoved = 0 then { st with entries := [], ordered := InIndexOrder.nil }
  else
    { st with
      entries := st.entries.take (lowerBoundOffset st.entries firstRemoved)
      ordered := st.ordered.sublist (take_sublist _ _) }

lemma below_of_mem_truncateSuffix {st : MemoryStore} (hm : e ∈ (st.truncateSuffix i).entries) : e.index < i := by
  unfold truncateSuffix at hm
  split at hm
  · simp at hm
  · exact below_of_mem_take_lowerBound hm

/-- `entries_.insert(entries_.end(), …)` of a sorted run that starts no lower
than anything stored. -/
def extend (st : MemoryStore) (run : List LogEntry) (sorted : InIndexOrder run)
    (above : ∀ a ∈ st.entries, ∀ b ∈ run, a.index ≤ b.index) : MemoryStore :=
  { st with
    entries := st.entries ++ run
    ordered := pairwise_append.mpr ⟨st.ordered, sorted, above⟩ }

def appendOne (st : MemoryStore) (entry : LogEntry) : MemoryStore :=
  if entry.index ≤ st.snapshot.lastIncludedIndex then st
  else if next : entry.index = st.lastLogIndex + 1 then
    st.extend [entry] (pairwise_singleton _ _) fun a member b belongs => by
      have := st.index_le_lastLogIndex a member
      rw [mem_singleton.mp belongs]
      omega
  else
    (st.truncateSuffix entry.index).extend [entry] (pairwise_singleton _ _)
      fun a member b belongs => by
        rw [mem_singleton.mp belongs]
        exact Nat.le_of_lt (below_of_mem_truncateSuffix member)

/-- `std::ranges::sort(to_append, {}, &log_entry::index)`. -/
def sortByIndex (es : List LogEntry) : List LogEntry :=
  es.insertionSort (·.index ≤ ·.index)

lemma sortByIndex_ordered (es : List LogEntry) : InIndexOrder (sortByIndex es) := by
  exact pairwise_insertionSort _ _

def append (st : MemoryStore) (es : List LogEntry) : MemoryStore :=
  match es with
  | [entry] => st.appendOne entry
  | _ =>
    match shape : sortByIndex (es.filter fun e => e.index > st.snapshot.lastIncludedIndex) with
    | [] => st
    | front :: rest =>
      (st.truncateSuffix front.index).extend (front :: rest) (shape ▸ sortByIndex_ordered _)
        fun a member b belongs => by
          have below := below_of_mem_truncateSuffix member
          have sorted := shape ▸ sortByIndex_ordered (es.filter fun e => e.index > st.snapshot.lastIncludedIndex)
          rcases mem_cons.mp belongs with equal | later
          · rw [equal]
            exact Nat.le_of_lt below
          · exact Nat.le_trans (Nat.le_of_lt below) ((pairwise_cons.mp sorted).1 b later)

def resetToSnapshot (st : MemoryStore) (m : SnapshotMetadata) : MemoryStore where
  snapshot := m
  state :=
    { st.state with
      commitIndex := max st.state.commitIndex m.lastIncludedIndex
      lastApplied := max st.state.lastApplied m.lastIncludedIndex }

end MemoryStore

/-- `last_log_term`. -/
def lastLogTerm (st : MemoryStore) : Nat := st.termAt st.lastLogIndex

def isLogAtLeastUpToDate (st : MemoryStore) (candidateLastIndex : Nat) (candidateLastTerm : Nat) : Bool :=
  let localLastTerm := lastLogTerm st
  if candidateLastTerm ≠ localLastTerm then decide (candidateLastTerm > localLastTerm)
  else decide (candidateLastIndex ≥ st.lastLogIndex)

/-- A store together with the script of its failing writes. -/
structure RaftStorage where
  mem : MemoryStore := {}
  faults : List (Option Thrown) := []

/-- Outcome of a throwing call, with the store it leaves. -/
abbrev StoreResult (α : Type) := Except Thrown α × RaftStorage

namespace RaftStorage

def write (st : RaftStorage) (change : MemoryStore → MemoryStore) : StoreResult Unit :=
  match st.faults with
  | [] => (.ok (), { st with mem := change st.mem })
  | none :: rest => (.ok (), { mem := change st.mem, faults := rest })
  | some thrown :: rest => (.error thrown, { st with faults := rest })

def saveHardState (st : RaftStorage) (s : HardState) : StoreResult Unit :=
  st.write (·.saveHardState s)

def saveSnapshotMetadata (st : RaftStorage) (m : SnapshotMetadata) : StoreResult Unit :=
  st.write (·.saveSnapshotMetadata m)

def append (st : RaftStorage) (es : List LogEntry) : StoreResult Unit := st.write (·.append es)
def appendOne (st : RaftStorage) (e : LogEntry) : StoreResult Unit := st.write (·.appendOne e)

def truncatePrefix (st : RaftStorage) (firstKept : Nat) : StoreResult Unit :=
  st.write (·.truncatePrefix firstKept)

def truncateSuffix (st : RaftStorage) (firstRemoved : Nat) : StoreResult Unit :=
  st.write (·.truncateSuffix firstRemoved)

def resetToSnapshot (st : RaftStorage) (m : SnapshotMetadata) : StoreResult Unit :=
  st.write (·.resetToSnapshot m)

end RaftStorage

end Cnetmod.Raft
