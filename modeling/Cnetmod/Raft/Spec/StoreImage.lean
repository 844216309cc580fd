import Cnetmod.Raft.Source.StorageCalls
import Cnetmod.Raft.Spec.NumberedLog
import Cnetmod.Raft.Spec.StoreRecords

/-!
# The database as an image of the memory store

The records of the log in order, then the hard state and the snapshot metadata
as far as they have been saved. A database of this form answers every query as
the memory store does.
-/
namespace Cnetmod.Raft

open List MemoryStore

open Coding (Bytes)
open Coding.SortedMap

variable {es : List LogEntry}

lemma InIndexOrder.not_below (ho : InIndexOrder (e :: es)) (hr : ¬ e.index < i) : ∀ x ∈ e :: es, ¬ x.index < i := by
  intro x hm
  rcases mem_cons.mp hm with rfl | hl
  · exact hr
  · have := (pairwise_cons.mp ho).1 x hl
    omega

lemma takeWhile_below (ho : InIndexOrder es) (i : Nat) : es.takeWhile (·.index < i) = es.filter (·.index < i) := by
  induction es with
  | nil => rfl
  | cons e es ih =>
    by_cases hb : e.index < i
    · rw [takeWhile_cons_of_pos (by simpa using hb), filter_cons_of_pos (by simpa using hb), ih ho.of_cons]
    · rw [takeWhile_cons_of_neg (by simpa using hb), eq_comm]
      simpa using ho.not_below hb

lemma dropWhile_below (ho : InIndexOrder es) (i : Nat) : es.dropWhile (·.index < i) = es.filter (i ≤ ·.index) := by
  induction es with
  | nil => rfl
  | cons e es ih =>
    by_cases hb : e.index < i
    · rw [dropWhile_cons_of_pos (by simpa using hb), filter_cons_of_neg (by simpa using hb), ih ho.of_cons]
    · rw [dropWhile_cons_of_neg (by simpa using hb), eq_comm]
      simpa using ho.not_below hb

lemma take_lowerBound (ho : InIndexOrder es) (i : Nat) : es.take (lowerBoundOffset es i) = es.filter (·.index < i) := by
  rw [lowerBoundOffset, ← prefix_iff_eq_take.mp <| takeWhile_prefix _, takeWhile_below ho]

lemma drop_lowerBound (ho : InIndexOrder es) (i : Nat) : es.drop (lowerBoundOffset es i) = es.filter (i ≤ ·.index) := by
  rw [← dropWhile_below ho]
  conv_lhs =>
    arg 2
    rw [← takeWhile_append_dropWhile (p := (·.index < i)) (l := es)]
  exact drop_left' rfl

namespace MemoryStore

variable (mem : MemoryStore)

lemma entriesFrom_eq (hd n : Nat) : mem.entriesFrom hd n = (mem.entries.filter (hd ≤ ·.index)).take n := by
  rw [entriesFrom, drop_lowerBound mem.ordered]

lemma entryAt_eq_find (i : Nat) : mem.entryAt i = mem.entries.find? (·.index = i) := by
  have split : mem.entries[lowerBoundOffset mem.entries i]? = (mem.entries.filter (i ≤ ·.index)).head? := by
    rw [← drop_lowerBound mem.ordered, head?_drop]
  have hf : (mem.entries.filter (i ≤ ·.index)).find? (·.index = i) = mem.entries.find? (·.index = i) := by
    rw [find?_filter]
    congr 1
    funext e
    by_cases hs : e.index = i <;> simp [hs]
  rw [entryAt_eq, split, ← hf]
  have ho := mem.ordered.sublist (filter_sublist (p := fun e => decide (i ≤ e.index)))
  have hb : ∀ e ∈ mem.entries.filter (i ≤ ·.index), i ≤ e.index := fun e hm => by
    simpa using (mem_filter.mp hm).2
  -- the first entry at or above the index is the one at it, or there is none
  cases hsh : mem.entries.filter (i ≤ ·.index) with
  | nil => rfl
  | cons e es =>
    rw [hsh] at ho hb
    by_cases hs : e.index = i
    · simp [hs, Option.filter]
    have ha := hb e (by simp)
    rw [find?_cons_of_neg (by simpa using hs), find?_eq_none.mpr]
    · simp [hs, Option.filter]
    intro x hl
    have := (pairwise_cons.mp ho).1 x hl
    simp only [decide_eq_true_eq]
    omega

lemma truncatePrefix_entries (fk : Nat) : (mem.truncatePrefix fk).entries = mem.entries.filter (fk ≤ ·.index) :=
  drop_lowerBound mem.ordered fk

lemma truncateSuffix_entries (fr : Nat) : (mem.truncateSuffix fr).entries = mem.entries.filter (·.index < fr) := by
  unfold truncateSuffix
  split
  next hz => simp [hz]
  next => exact take_lowerBound mem.ordered fr

lemma appendOne_entries (ha : mem.snapshot.lastIncludedIndex < ent.index) :
    (mem.appendOne ent).entries = mem.entries.filter (·.index < ent.index) ++ [ent] := by
  rw [appendOne, if_neg (by omega)]
  split
  next next =>
    have all : mem.entries.filter (·.index < ent.index) = mem.entries := by
      refine filter_eq_self.mpr fun e hm => ?_
      have := mem.index_le_lastLogIndex e hm
      simp only [decide_eq_true_eq]
      omega
    rw [all]
    rfl
  next => exact congrArg (· ++ [ent]) (mem.truncateSuffix_entries ent.index)

lemma append_entries (ho : InIndexOrder (fr :: tl)) (ha : ∀ e ∈ fr :: tl, mem.snapshot.lastIncludedIndex < e.index) :
    (mem.append (fr :: tl)).entries = mem.entries.filter (·.index < fr.index) ++ (fr :: tl) := by
  cases tl with
  | nil => exact mem.appendOne_entries (ha fr (by simp))
  | cons second tl =>
    have hk : sortByIndex ((fr :: second :: tl).filter
        fun e => e.index > mem.snapshot.lastIncludedIndex) = fr :: second :: tl := by
      rw [filter_eq_self.mpr (by simpa using ha), sortByIndex_of_ordered ho]
    unfold append
    dsimp only
    split
    next he =>
      rw [hk] at he
      cases he
    next hd others hs =>
      rw [hk] at hs
      obtain ⟨rfl, rfl⟩ := cons.inj hs
      exact congrArg (· ++ _) (mem.truncateSuffix_entries _)

end MemoryStore

def logRecord (e : LogEntry) : Bytes × Bytes := (logKey e.index, serializeEntry e)

/-- The records of what has been saved besides the log. -/
def metaRecords (state : Option HardState) (snapshot : Option SnapshotMetadata) : List (Bytes × Bytes) :=
  (state.map fun s => (hardStateKey, serializeState s)).toList ++
    (snapshot.map fun m => (snapshotKey, serializeSnapshot m)).toList

/-- The database holds what the memory store holds, all of it of the source's types. -/
structure Mirrors (mem : MemoryStore) (st : LeveldbStore) : Prop where
  increasing : mem.entries.Pairwise (·.index < ·.index)
  fit : ∀ e ∈ mem.entries, e.Fits
  stateFits : mem.state.Fits
  snapshotFits : mem.snapshot.Fits
  image : ∃ state snapshot, mem.state = state.getD {} ∧ mem.snapshot = snapshot.getD {} ∧
    st.db.records = mem.entries.map logRecord ++ metaRecords state snapshot

section

variable {mem : MemoryStore} {st : LeveldbStore} {state : Option HardState} {snapshot : Option SnapshotMetadata}

section

variable {r : Bytes × Bytes} (hm : r ∈ metaRecords state snapshot)

include hm

lemma meta_key : r.1 = hardStateKey ∨ r.1 = snapshotKey := by
  rcases mem_append.mp hm with hs | hs
  · obtain ⟨s, -, rfl⟩ := Option.map_eq_some_iff.mp (Option.mem_toList.mp hs)
    exact .inl rfl
  · obtain ⟨m, -, rfl⟩ := Option.map_eq_some_iff.mp (Option.mem_toList.mp hs)
    exact .inr rfl

lemma logKey_lt_meta (i : Nat) : logKey i < r.1 := by
  rcases meta_key hm with key | key
  · rw [key]
    exact logKey_lt_hardStateKey i
  · rw [key]
    exact logKey_lt_snapshotKey i

lemma meta_not_log : isLogKey r.1 = false := by
  rcases meta_key hm with key | key
  · rw [key]
    exact isLogKey_hardStateKey
  · rw [key]
    exact isLogKey_snapshotKey

end

lemma takeWhile_log (es : List LogEntry) :
    (es.map logRecord ++ metaRecords state snapshot).takeWhile (fun r => isLogKey r.1) = es.map logRecord := by
  rw [takeWhile_append_of_pos]
  · have he : (metaRecords state snapshot).takeWhile (fun r => isLogKey r.1) = [] := by
      cases hs : metaRecords state snapshot with
      | nil => rfl
      | cons r tl =>
        have hh : r ∈ metaRecords state snapshot := by simp [hs]
        rw [takeWhile_cons_of_neg (by simp [meta_not_log hh])]
    rw [he, append_nil]
  intro r hm
  obtain ⟨e, -, rfl⟩ := mem_map.mp hm
  exact isLogKey_logKey e.index

variable (hr : st.db.records = mem.entries.map logRecord ++ metaRecords state snapshot)

include hr

/-- An iteration from a key below the meta records goes through the entries whose
key it does not exceed. -/
lemma logFrom_eq (key : Bytes) (p : LogEntry → Bool) (low : ∀ r ∈ metaRecords state snapshot, key ≤ r.1)
    (hs : ∀ e ∈ mem.entries, decide (key ≤ logKey e.index) = p e) : st.logFrom key = (mem.entries.filter p).map logRecord := by
  have ho : (metaRecords state snapshot).filter (key ≤ ·.1) = metaRecords state snapshot :=
    filter_eq_self.mpr (by simpa using fun a b hm => low (a, b) hm)
  have log : (mem.entries.map logRecord).filter (key ≤ ·.1) = (mem.entries.filter p).map logRecord := by
    rw [filter_map]
    exact congrArg (map logRecord) (filter_congr hs)
  rw [LeveldbStore.logFrom, seek, hr, filter_append, ho, log, takeWhile_log]

lemma logFrom_all : st.logFrom logPrefix = mem.entries.map logRecord := by
  have hf := logFrom_eq hr logPrefix (fun _ => true)
    (fun r hm => (logPrefix_le_logKey 0).trans (logKey_lt_meta hm 0).le)
    (fun e _ => by simpa using logPrefix_le_logKey e.index)
  rwa [filter_eq_self.mpr (by simp)] at hf

lemma logFrom_index (fit : ∀ e ∈ mem.entries, e.Fits) (hf : i < 2 ^ 64) :
    st.logFrom (logKey i) = (mem.entries.filter (i ≤ ·.index)).map logRecord :=
  logFrom_eq hr _ _ (fun r hm => (logKey_lt_meta hm i).le) fun e hm => by rw [decide_eq_decide, logKey_le_iff hf (fit e hm).1]

lemma get_log (fit : ∀ e ∈ mem.entries, e.Fits) (ha : i < 2 ^ 64) :
    st.db.get (logKey i) = (mem.entries.find? (·.index = i)).map serializeEntry := by
  cases hf : mem.entries.find? (·.index = i) with
  | some e =>
    have hm := mem_of_find?_eq_some hf
    have hb : e.index = i := by simpa using find?_some hf
    rw [← hb]
    refine get_of_mem ?_
    rw [hr]
    exact mem_append_left _ (mem_map_of_mem hm)
  | none =>
    refine get_of_not_mem fun r hm => ?_
    rw [hr] at hm
    rcases mem_append.mp hm with log | hsa
    · obtain ⟨e, hs, rfl⟩ := mem_map.mp log
      have ho : e.index ≠ i := by simpa using find?_eq_none.mp hf e hs
      exact fun he => ho ((logKey_inj (fit e hs).1 ha).mp he)
    · exact (logKey_lt_meta hsa i).ne'

lemma get_meta (ha : ∀ i, logKey i ≠ key) (hf : ∀ v ∈ val, (key, v) ∈ metaRecords state snapshot)
    (hb : val = none → ∀ r ∈ metaRecords state snapshot, r.1 ≠ key) : st.db.get key = val := by
  cases val with
  | some v => exact get_of_mem (hr ▸ mem_append_right _ (hf v rfl))
  | none =>
    refine get_of_not_mem fun r hm => ?_
    rw [hr] at hm
    rcases mem_append.mp hm with log | hs
    · obtain ⟨e, -, rfl⟩ := mem_map.mp log
      exact ha e.index
    · exact hb rfl r hs

lemma get_hardState : st.db.get hardStateKey = state.map serializeState := by
  refine get_meta hr (fun i => (logKey_lt_hardStateKey i).ne) ?_ ?_ <;> cases state with
  | some s => simp [metaRecords]
  | none => simp [metaRecords, hardStateKey_lt_snapshotKey.ne']

lemma get_snapshot : st.db.get snapshotKey = snapshot.map serializeSnapshot := by
  refine get_meta hr (fun i => (logKey_lt_snapshotKey i).ne) ?_ ?_ <;> cases snapshot with
  | some m => simp [metaRecords]
  | none => simp [metaRecords, hardStateKey_lt_snapshotKey.ne]

end

namespace Mirrors

variable {mem : MemoryStore} {st : LeveldbStore} {es : List LogEntry}

lemma foldlM_index (fit : ∀ e ∈ es, e.Fits) (n0 : Nat) :
    (es.map logRecord).foldlM (fun _ r => parseLogIndex r.1) n0 = .ok ((es.getLast?.map (·.index)).getD n0) := by
  induction es generalizing n0 with
  | nil => rfl
  | cons e es ih =>
    obtain ⟨hf, hr⟩ := forall_mem_cons.mp fit
    rw [map_cons, foldlM_cons]
    dsimp only [logRecord]
    rw [parseLogIndex_logKey hf.1]
    refine (ih hr e.index).trans ?_
    cases es with
    | nil => rfl
    | cons x xs =>
      rfl

lemma mapM_entries (fit : ∀ e ∈ es, e.Fits) :
    (es.map logRecord).mapM (fun r => do deserializeEntry (← parseLogIndex r.1) r.2) = (.ok es : Except Thrown _) := by
  induction es with
  | nil => rfl
  | cons e es ih =>
    obtain ⟨hf, hr⟩ := forall_mem_cons.mp fit
    have one : (do deserializeEntry (← parseLogIndex (logRecord e).1) (logRecord e).2) = (.ok e : Except Thrown _) := by
      simp only [logRecord, parseLogIndex_logKey hf.1, bind, Except.bind, deserializeEntry_serialize hf]
    rw [map_cons, mapM_cons, one, ih hr]
    rfl

variable (hm : Mirrors mem st)

include hm

lemma loadHardState : st.loadHardState = .ok mem.state := by
  obtain ⟨state, snap, hs, -, hr⟩ := hm.image
  have hf := hm.stateFits
  rw [LeveldbStore.loadHardState, get_hardState hr]
  cases state with
  | none =>
    rw [hs]
    rfl
  | some s =>
    rw [hs] at hf ⊢
    exact deserializeState_serialize hf

lemma loadSnapshotMetadata : st.loadSnapshotMetadata = .ok mem.snapshot := by
  obtain ⟨state, snap, -, hs, hr⟩ := hm.image
  have hf := hm.snapshotFits
  rw [LeveldbStore.loadSnapshotMetadata, get_snapshot hr]
  cases snap with
  | none =>
    rw [hs]
    rfl
  | some m =>
    rw [hs] at hf ⊢
    exact deserializeSnapshot_serialize hf

lemma firstLogIndex : st.firstLogIndex = .ok (mem.firstLogIndex % 2 ^ 64) := by
  obtain ⟨state, snap, -, -, hr⟩ := hm.image
  rw [LeveldbStore.firstLogIndex, logFrom_all hr, head?_map, MemoryStore.firstLogIndex]
  cases hfi : mem.entries.head? with
  | none =>
    rw [hm.loadSnapshotMetadata]
    rfl
  | some e =>
    have hf := (hm.fit e (mem_of_mem_head? hfi)).1
    rw [Option.map_some]
    dsimp only [logRecord]
    rw [parseLogIndex_logKey hf, Nat.mod_eq_of_lt hf]

lemma lastLogIndex : st.lastLogIndex = .ok mem.lastLogIndex := by
  obtain ⟨state, snap, -, -, hr⟩ := hm.image
  rw [LeveldbStore.lastLogIndex, hm.loadSnapshotMetadata, logFrom_all hr]
  refine (foldlM_index hm.fit _).trans ?_
  rw [MemoryStore.lastLogIndex]
  cases mem.entries.getLast? <;> rfl

lemma entryAt (ha : i < 2 ^ 64) : st.entryAt i = .ok (mem.entryAt i) := by
  obtain ⟨state, snap, -, -, hr⟩ := hm.image
  rw [LeveldbStore.entryAt, get_log hr hm.fit ha, entryAt_eq_find]
  cases hf : mem.entries.find? (·.index = i) with
  | none => rfl
  | some e =>
    have hs : e.index = i := by simpa using find?_some hf
    rw [Option.map_some, ← hs]
    dsimp only
    rw [deserializeEntry_serialize (hm.fit e (mem_of_find?_eq_some hf))]
    rfl

lemma termAt (hf : i < 2 ^ 64) : st.termAt i = .ok (mem.termAt i) := by
  unfold LeveldbStore.termAt MemoryStore.termAt
  split
  · rfl
  rw [hm.loadSnapshotMetadata, hm.entryAt hf, ← MemoryStore.entryAt]
  show (if i = mem.snapshot.lastIncludedIndex then _ else _) = _
  split
  · rfl
  · cases mem.entryAt i <;> rfl

lemma entriesFrom (hf : hd < 2 ^ 64) (n : Nat) : st.entriesFrom hd n = .ok (mem.entriesFrom hd n) := by
  obtain ⟨state, snap, -, -, hr⟩ := hm.image
  rw [LeveldbStore.entriesFrom, logFrom_index hr hm.fit hf, ← map_take, entriesFrom_eq]
  exact mapM_entries fun e he => hm.fit e (mem_of_mem_filter (mem_of_mem_take he))

/-- An image answers as its original does. -/
lemma queries : st.queries = mem.queries := by
  ext1
  · exact hm.loadHardState
  · exact hm.loadSnapshotMetadata
  · exact hm.firstLogIndex
  · exact hm.lastLogIndex
  · funext i
    exact hm.termAt i.toNat_lt
  · funext i
    exact hm.entryAt i.toNat_lt
  · funext first count
    exact hm.entriesFrom first.toNat_lt count

end Mirrors

end Cnetmod.Raft
