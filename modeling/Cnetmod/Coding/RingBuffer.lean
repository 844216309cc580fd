import Mathlib.Data.List.Basic
import Mathlib.Data.Nat.ModEq

/-!
# Ring buffers

A fixed number of slots with a position to read from and a position to write to, each of
which goes back to the first slot after the last. What it holds is a queue.
-/
namespace Cnetmod.Coding

open List

structure RingBuffer (α : Type*) where
  slots : List (Option α)
  readPos : Nat := 0
  writePos : Nat := 0
  count : Nat := 0

namespace RingBuffer

variable {α : Type*} {r : RingBuffer α} {q : List α} {v : α}

/-- All slots empty. -/
def new (capacity : Nat) : RingBuffer α where
  slots := List.replicate capacity none

def capacity (r : RingBuffer α) : Nat := r.slots.length

def next (r : RingBuffer α) (pos : Nat) : Nat := if pos + 1 = r.capacity then 0 else pos + 1

def push (r : RingBuffer α) (v : α) : RingBuffer α :=
  { r with slots := r.slots.set r.writePos (some v), writePos := r.next r.writePos, count := r.count + 1 }

/-- The slot that is read is empty afterwards. -/
def pop (r : RingBuffer α) : Option α × RingBuffer α :=
  ((r.slots[r.readPos]?).join,
    { r with slots := r.slots.set r.readPos none, readPos := r.next r.readPos, count := r.count - 1 })

/-- The values of `n` slots, the first to be read first. -/
def popMany (r : RingBuffer α) : Nat → List α × RingBuffer α
  | 0 => ([], r)
  | n + 1 =>
    let (v, r) := r.pop
    let (values, r) := r.popMany n
    (v.toList ++ values, r)

/-- The slot `i` places after the one to read. -/
def index (r : RingBuffer α) (i : Nat) : Nat := (r.readPos + i) % r.capacity

/-- The ring holds the values of `q`, the first to be read first. -/
structure Holds (r : RingBuffer α) (q : List α) : Prop where
  count : r.count = q.length
  fits : q.length ≤ r.capacity
  read : 0 < r.capacity → r.readPos < r.capacity
  write : 0 < r.capacity → r.writePos = r.index q.length
  slots : ∀ (i : Nat) (inside : i < q.length), r.slots[r.index i]? = some (some q[i])

@[simp] lemma capacity_new (n : Nat) : (new n : RingBuffer α).capacity = n := length_replicate

@[simp] lemma capacity_push (r : RingBuffer α) (v : α) : (r.push v).capacity = r.capacity := length_set

@[simp] lemma capacity_pop (r : RingBuffer α) : r.pop.2.capacity = r.capacity := length_set

/-- Going on by one is counting modulo the number of slots. -/
lemma next_eq {pos : Nat} (hi : pos < r.capacity) : r.next pos = (pos + 1) % r.capacity := by
  rw [next]
  split
  next hl => rw [hl, Nat.mod_self]
  next hm => rw [Nat.mod_eq_of_lt (by omega)]

lemma index_lt (some : 0 < r.capacity) (i : Nat) : r.index i < r.capacity := Nat.mod_lt _ some

lemma next_index {i : Nat} (some : 0 < r.capacity) : r.next (r.index i) = r.index (i + 1) := by
  rw [next_eq (index_lt some i), index, index, Nat.mod_add_mod, add_assoc]

/-- Within one round the slots differ. -/
lemma index_inj {i j : Nat} (hf : i < r.capacity) (hs : j < r.capacity) (ha : r.index i = r.index j) : i = j := by
  have hc : i ≡ j [MOD r.capacity] := Nat.ModEq.add_left_cancel' r.readPos ha
  rwa [Nat.ModEq, Nat.mod_eq_of_lt hf, Nat.mod_eq_of_lt hs] at hc

namespace Holds

lemma new (cap : Nat) : (new cap : RingBuffer α).Holds [] := by
  refine ⟨rfl, Nat.zero_le _, fun some => some, fun some => ?_, fun i hi => absurd hi (Nat.not_lt_zero i)⟩
  exact (Nat.zero_mod _).symm

lemma push (hh : r.Holds q) (hr : q.length < r.capacity) (v : α) : (r.push v).Holds (q ++ [v]) := by
  have some : 0 < r.capacity := by omega
  have hi (i : Nat) : (r.push v).index i = r.index i := by rw [RingBuffer.index, RingBuffer.index, capacity_push]; rfl
  have hw := hh.write some
  refine ⟨?_, ?_, fun _ => ?_, fun _ => ?_, fun i hn => ?_⟩
  · rw [length_append, ← hh.count]
    rfl
  · rw [capacity_push, length_append]
    exact hr
  · rw [capacity_push]
    exact hh.read some
  · rw [hi, length_append, length_singleton, ← next_index some, ← hw]
    rfl
  rw [hi, RingBuffer.push, hw]
  rw [length_append, length_singleton] at hn
  by_cases hhe : i = q.length
  · subst hhe
    rw [getElem?_set_self (index_lt some _)]
    simp
  · have hb : i < q.length := by omega
    rw [getElem?_set_ne (fun hs => hhe (index_inj (by omega) hr hs.symm)), hh.slots i hb, getElem_append_left hb]

lemma pop (hh : r.Holds (v :: q)) : r.pop.1 = some v ∧ r.pop.2.Holds q := by
  have ha := hh.fits
  rw [length_cons] at ha
  have some : 0 < r.capacity := by omega
  have hr := hh.read some
  have hf : r.index 0 = r.readPos := Nat.mod_eq_of_lt hr
  have hi (i : Nat) : r.pop.2.index i = r.index (i + 1) := by
    rw [RingBuffer.index, capacity_pop, RingBuffer.pop, next_eq hr, Nat.mod_add_mod]
    congr 1
    omega
  constructor
  · have hl := hh.slots 0 (Nat.succ_pos _)
    rw [hf] at hl
    rw [RingBuffer.pop, hl]
    rfl
  refine ⟨?_, ?_, fun _ => ?_, fun _ => ?_, fun i hb => ?_⟩
  · change r.count - 1 = q.length
    rw [hh.count, length_cons, Nat.add_sub_cancel]
  · rw [capacity_pop]
    omega
  · rw [capacity_pop, RingBuffer.pop, next_eq hr]
    exact Nat.mod_lt _ some
  · rw [hi]
    exact hh.write some
  rw [hi, RingBuffer.pop]
  have ho : r.readPos ≠ r.index (i + 1) := by
    intro hs
    rw [← hf] at hs
    have := index_inj some (by omega) hs
    omega
  have hn : i + 1 < (v :: q).length := by
    rw [length_cons]
    omega
  rw [getElem?_set_ne ho, hh.slots (i + 1) hn, getElem_cons_succ]

lemma popMany (hh : r.Holds q) {n : Nat} (he : n ≤ q.length) :
    (r.popMany n).1 = q.take n ∧ (r.popMany n).2.Holds (q.drop n) ∧ (r.popMany n).2.capacity = r.capacity := by
  induction n generalizing r q with
  | zero => exact ⟨rfl, hh, rfl⟩
  | succ n ih =>
    cases q with
    | nil => cases he
    | cons v q =>
      obtain ⟨ha, hr⟩ := hh.pop
      obtain ⟨hv, ho, hc⟩ := ih hr (Nat.le_of_succ_le_succ he)
      refine ⟨?_, ho, hc.trans (capacity_pop r)⟩
      rw [RingBuffer.popMany]
      dsimp only
      rw [ha, hv]
      rfl

end Holds

end RingBuffer

end Cnetmod.Coding
