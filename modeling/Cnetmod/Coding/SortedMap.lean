import Mathlib.Data.List.Induction
import Mathlib.Data.List.Lex
import Mathlib.Order.Lattice
import Cnetmod.Coding.Bits

/-!
# Ordered maps

A store of records in the order of their keys: lookup, iteration from a key on,
and batches of writes that take effect together.
-/
namespace Cnetmod.Coding

open List

/-- Keys of bytes are compared byte by byte, as `memcmp` does. -/
instance linearOrderUInt8 : LinearOrder UInt8 where
  le_refl := UInt8.le_refl
  le_trans _ _ _ := UInt8.le_trans
  lt_iff_le_not_ge _ _ := by
    rw [UInt8.not_le]
    exact ⟨fun less => ⟨UInt8.le_of_lt less, less⟩, And.right⟩
  le_antisymm _ _ := UInt8.le_antisymm
  le_total := UInt8.le_total
  toDecidableLE := inferInstance

structure SortedMap (κ ν : Type*) [LinearOrder κ] where
  records : List (κ × ν)
  sorted : records.Pairwise (·.1 < ·.1)

inductive BatchWrite (κ ν : Type*) where
  | put (key : κ) (value : ν)
  | delete (key : κ)

namespace SortedMap

variable {κ ν : Type*} [LinearOrder κ]

def empty : SortedMap κ ν := ⟨[], List.Pairwise.nil⟩

def get (m : SortedMap κ ν) (key : κ) : Option ν := (m.records.find? (·.1 = key)).map (·.2)

/-- The records an iterator passes that has been set to `key`. -/
def seek (m : SortedMap κ ν) (key : κ) : List (κ × ν) := m.records.filter (key ≤ ·.1)

def put (m : SortedMap κ ν) (key : κ) (value : ν) : SortedMap κ ν where
  records := m.records.filter (·.1 < key) ++ (key, value) :: m.records.filter (key < ·.1)
  sorted := by
    have below : ∀ a ∈ m.records.filter (·.1 < key), a.1 < key := fun a member => by
      simpa using (mem_filter.mp member).2
    have above : ∀ b ∈ m.records.filter (key < ·.1), key < b.1 := fun b member => by
      simpa using (mem_filter.mp member).2
    refine pairwise_append.mpr ⟨m.sorted.filter _, pairwise_cons.mpr ⟨above, m.sorted.filter _⟩, fun a first b second => ?_⟩
    rcases mem_cons.mp second with rfl | later
    · exact below a first
    · exact (below a first).trans (above b later)

def delete (m : SortedMap κ ν) (key : κ) : SortedMap κ ν where
  records := m.records.filter (·.1 ≠ key)
  sorted := m.sorted.filter _

/-- Insertion that leaves a key alone that is there. -/
def tryEmplace (m : SortedMap κ ν) (key : κ) (value : ν) : SortedMap κ ν :=
  if (m.get key).isSome then m else m.put key value

def mapValues (m : SortedMap κ ν) (change : ν → ν) : SortedMap κ ν where
  records := m.records.map fun record => (record.1, change record.2)
  sorted := pairwise_map.mpr m.sorted

/-- Changes the values and takes out the records for which there is no new one. -/
def filterMapValues (m : SortedMap κ ν) (change : ν → Option ν) : SortedMap κ ν where
  records := m.records.filterMap fun record => (change record.2).map (record.1, ·)
  sorted := by
    refine pairwise_filterMap.mpr (m.sorted.imp fun less c first d second => ?_)
    obtain ⟨_, -, rfl⟩ := Option.map_eq_some_iff.mp first
    obtain ⟨_, -, rfl⟩ := Option.map_eq_some_iff.mp second
    exact less

def write (m : SortedMap κ ν) (batch : List (BatchWrite κ ν)) : SortedMap κ ν :=
  batch.foldl (fun m change => match change with
    | .put key value => m.put key value
    | .delete key => m.delete key) m

variable (m : SortedMap κ ν)

@[simp] lemma records_empty : (empty : SortedMap κ ν).records = [] := rfl

@[simp] lemma write_nil : m.write [] = m := rfl

lemma write_append (hd second : List (BatchWrite κ ν)) : m.write (hd ++ second) = (m.write hd).write second := foldl_append

/-- Deleting keys leaves the records that have none of them. -/
lemma records_write_deletes (keys : List κ) {p : κ × ν → Bool} (hk : ∀ r ∈ m.records, p r = true ↔ r.1 ∉ keys) :
    (m.write (keys.map .delete)).records = m.records.filter p := by
  have all : (m.write (keys.map .delete)).records = m.records.filter (·.1 ∉ keys) := by
    clear hk
    induction keys generalizing m with
    | nil => simp
    | cons key keys ih =>
      refine (ih (m.delete key)).trans ?_
      rw [delete, filter_filter]
      exact filter_congr fun r _ => by simp [Bool.and_comm]
  rw [all]
  refine filter_congr fun r hm => ?_
  rw [Bool.eq_iff_iff, decide_eq_true_iff, hk r hm]

variable {m} {key : κ} {v : ν}

/-- A record goes between those below and those above it, in place of one with its key. -/
lemma records_put {below same above : List (κ × ν)} (v : ν)
    (split : m.records = below ++ same ++ above) (hl : ∀ a ∈ below, a.1 < key)
    (he : ∀ a ∈ same, a.1 = key) (hh : ∀ a ∈ above, key < a.1) : (m.put key v).records = below ++ (key, v) :: above := by
  have hf : m.records.filter (·.1 < key) = below := by
    rw [split, filter_append, filter_append, filter_eq_self.mpr (by simpa using hl),
      filter_eq_nil_iff.mpr (by simpa using fun a b hm => (he (a, b) hm).ge),
      filter_eq_nil_iff.mpr (by simpa using fun a b hm => (hh (a, b) hm).le)]
    simp
  have ha : m.records.filter (key < ·.1) = above := by
    rw [split, filter_append, filter_append, filter_eq_nil_iff.mpr (by simpa using fun a b hm => (hl (a, b) hm).le),
      filter_eq_nil_iff.mpr (by simpa using fun a b hm => (he (a, b) hm).le),
      filter_eq_self.mpr (by simpa using hh)]
    simp
  exact congrArg₂ (· ++ (key, v) :: ·) hf ha

lemma get_of_mem (hm : (key, v) ∈ m.records) : m.get key = some v := by
  obtain ⟨pre, after, split⟩ := append_of_mem hm
  have ha := m.sorted
  rw [split, pairwise_append] at ha
  rw [get, split, find?_append, find?_eq_none.mpr]
  · simp
  · intro r he
    simpa using (ha.2.2 r he (key, v) (by simp)).ne

lemma get_of_not_mem (hm : ∀ record ∈ m.records, record.1 ≠ key) : m.get key = none := by
  rw [get, find?_eq_none.mpr (by simpa using fun a b he => hm (a, b) he)]
  rfl

lemma get_eq_some_iff : m.get key = some v ↔ (key, v) ∈ m.records := by
  refine ⟨fun hf => ?_, get_of_mem⟩
  obtain ⟨r, hh, rfl⟩ := Option.map_eq_some_iff.mp hf
  obtain rfl : r.1 = key := by simpa using find?_some hh
  exact mem_of_find?_eq_some hh

lemma mem_put {k' : κ} {v' : ν} : (k', v') ∈ (m.put key v).records ↔ k' = key ∧ v' = v ∨ k' ≠ key ∧ (k', v') ∈ m.records := by
  simp only [put, mem_append, mem_cons, mem_filter, Prod.mk.injEq, decide_eq_true_eq]
  constructor
  · rintro (⟨hm, hb⟩ | hs | ⟨hm, ha⟩)
    · exact .inr ⟨hb.ne, hm⟩
    · exact .inl hs
    · exact .inr ⟨ha.ne', hm⟩
  rintro (hs | ⟨ho, hm⟩)
  · exact .inr (.inl hs)
  rcases lt_or_gt_of_ne ho with hb | ha
  · exact .inl ⟨hm, hb⟩
  · exact .inr (.inr ⟨hm, ha⟩)

lemma ext {m m' : SortedMap κ ν} (hs : m.records = m'.records) : m = m' := by
  cases m
  cases m'
  cases hs
  rfl

lemma get_put (key k' : κ) (v : ν) [Decidable (key = k')] : (m.put key v).get k' = if key = k' then some v else m.get k' := by
  refine Option.ext fun found => ?_
  rw [get_eq_some_iff, mem_put]
  split
  next hs => simp [hs, eq_comm]
  next ho => simp [Ne.symm ho, get_eq_some_iff]

lemma mem_delete {k' : κ} {v' : ν} : (k', v') ∈ (m.delete key).records ↔ k' ≠ key ∧ (k', v') ∈ m.records := by
  simp [delete, and_comm]

lemma get_delete (key k' : κ) [Decidable (key = k')] : (m.delete key).get k' = if key = k' then none else m.get k' := by
  refine Option.ext fun found => ?_
  rw [get_eq_some_iff, mem_delete]
  split
  next hs => simp [hs]
  next ho => simp [Ne.symm ho, get_eq_some_iff]

lemma get_tryEmplace (key k' : κ) (v : ν) [Decidable (key = k')] :
    (m.tryEmplace key v).get k' = if key = k' then some ((m.get key).getD v) else m.get k' := by
  rw [tryEmplace]
  cases hf : m.get key with
  | none => simp [get_put]
  | some old =>
    rw [if_pos (by simp)]
    split
    next hs => rw [← hs, hf, Option.getD_some]
    · rfl

lemma get_mapValues (change : ν → ν) (key : κ) : (m.mapValues change).get key = (m.get key).map change := by
  refine Option.ext fun found => ?_
  rw [get_eq_some_iff, mapValues, mem_map, Option.map_eq_some_iff]
  constructor
  · rintro ⟨r, hm, hs⟩
    obtain ⟨rfl, rfl⟩ := Prod.mk.inj hs
    exact ⟨r.2, get_of_mem hm, rfl⟩
  · rintro ⟨v, hh, rfl⟩
    exact ⟨(key, v), get_eq_some_iff.mp hh, rfl⟩

lemma get_filterMapValues (change : ν → Option ν) (key : κ) : (m.filterMapValues change).get key = (m.get key).bind change := by
  refine Option.ext fun found => ?_
  rw [get_eq_some_iff, filterMapValues, mem_filterMap, Option.bind_eq_some_iff]
  constructor
  · rintro ⟨r, hm, hs⟩
    obtain ⟨v, hc, hs⟩ := Option.map_eq_some_iff.mp hs
    obtain ⟨rfl, rfl⟩ := Prod.mk.inj hs
    exact ⟨r.2, get_of_mem hm, hc⟩
  · rintro ⟨v, hh, hc⟩
    exact ⟨(key, v), get_eq_some_iff.mp hh, by simp [hc]⟩

/-- Putting what is there changes nothing. -/
lemma put_eq_self (ht : m.get key = some v) : m.put key v = m := by
  obtain ⟨below, above, split⟩ := append_of_mem (get_eq_some_iff.mp ht)
  have ha := m.sorted
  rw [split, pairwise_append, pairwise_cons] at ha
  refine ext ?_
  rw [split]
  have hp : m.records = below ++ [(key, v)] ++ above := by simpa using split
  exact records_put v hp (fun a hm => ha.2.2 a hm (key, v) (by simp)) (by simp) fun a hm => ha.2.1.1 a hm

/-- Records put in the order of their keys. -/
lemma records_foldl_put {l : List (κ × ν)} (hs : l.Pairwise (·.1 < ·.1)) :
    (l.foldl (fun m r => m.put r.1 r.2) (empty : SortedMap κ ν)).records = l := by
  induction l using reverseRecOn with
  | nil => rfl
  | append_singleton l last ih =>
    obtain ⟨hr, -, hb⟩ := pairwise_append.mp hs
    have hl : ∀ r ∈ l, r.1 < last.1 := fun r hm => hb r hm last (by simp)
    have hp : (l.foldl (fun m r => m.put r.1 r.2) (empty : SortedMap κ ν)).records = l ++ [] ++ [] := by
      simpa using ih hr
    rw [foldl_append, foldl_cons, foldl_nil, records_put last.2 hp hl (by simp) (by simp)]

end SortedMap

end Cnetmod.Coding
