import Cnetmod.Raft.Spec.StoreImage

/-!
# LevelDB against memory

The two stores differ in what they do with entries that the snapshot covers: the
memory store drops them, LevelDB stores them. The log manager never passes such
entries on, as long as the log starts after the snapshot. It does unless a node
saves a snapshot whose index is the largest there is: the compaction that follows
then starts at 0 and removes nothing.
-/
namespace Cnetmod.Raft

open List LeveldbStore

open Coding (Bytes SortedMap)

section

variable {db : SortedMap Bytes Bytes} {es : List LogEntry} {state : Option HardState} {snap : Option SnapshotMetadata}

/-- The records of a log and of what has been saved besides. -/
def imageRecords (es : List LogEntry) (state : Option HardState) (snapshot : Option SnapshotMetadata) : List (Bytes × Bytes) :=
  es.map logRecord ++ metaRecords state snapshot

variable (hr : db.records = imageRecords es state snap)

include hr

lemma records_putState (s : HardState) : (db.put hardStateKey (serializeState s)).records = imageRecords es (some s) snap := by
  have split : db.records = es.map logRecord ++ (state.map fun s => (hardStateKey, serializeState s)).toList ++
      (snap.map fun m => (snapshotKey, serializeSnapshot m)).toList := by
    rw [hr, imageRecords, metaRecords, append_assoc]
  refine SortedMap.records_put _ split ?_ ?_ ?_
  · intro r hm
    obtain ⟨e, -, rfl⟩ := mem_map.mp hm
    exact logKey_lt_hardStateKey e.index
  · intro r hm
    obtain ⟨s, -, rfl⟩ := Option.map_eq_some_iff.mp (Option.mem_toList.mp hm)
    rfl
  intro r hm
  obtain ⟨m, -, rfl⟩ := Option.map_eq_some_iff.mp (Option.mem_toList.mp hm)
  exact hardStateKey_lt_snapshotKey

lemma records_putSnapshot (m : SnapshotMetadata) :
    (db.put snapshotKey (serializeSnapshot m)).records = imageRecords es state (some m) := by
  have split : db.records = (es.map logRecord ++ (state.map fun s => (hardStateKey, serializeState s)).toList) ++
      (snap.map fun m => (snapshotKey, serializeSnapshot m)).toList ++ [] := by
    rw [hr, imageRecords, metaRecords, append_nil, append_assoc]
  refine (SortedMap.records_put _ split ?_ ?_ ?_).trans ?_
  · intro r hm
    rcases mem_append.mp hm with log | hs
    · obtain ⟨e, -, rfl⟩ := mem_map.mp log
      exact logKey_lt_snapshotKey e.index
    · obtain ⟨s, -, rfl⟩ := Option.map_eq_some_iff.mp (Option.mem_toList.mp hs)
      exact hardStateKey_lt_snapshotKey
  · intro r hm
    obtain ⟨m, -, rfl⟩ := Option.map_eq_some_iff.mp (Option.mem_toList.mp hm)
    rfl
  · simp
  · simp [imageRecords, metaRecords]

lemma records_putEntry (fit : ∀ x ∈ es, x.Fits) (hf : e.Fits) (hl : ∀ x ∈ es, x.index < e.index) :
    (db.put (logKey e.index) (serializeEntry e)).records = imageRecords (es ++ [e]) state snap := by
  have split : db.records = es.map logRecord ++ [] ++ metaRecords state snap := by
    rw [hr, imageRecords, append_nil]
  refine (SortedMap.records_put _ split ?_ (by simp) fun r hm => logKey_lt_meta hm _).trans ?_
  · intro r hm
    obtain ⟨x, hs, rfl⟩ := mem_map.mp hm
    exact (logKey_lt_iff (fit x hs).1 hf.1).mpr (hl x hs)
  · simp [imageRecords, logRecord]

/-- A run of entries past the end of the log. -/
lemma records_putEntries (fit : ∀ x ∈ es ++ run, x.Fits) (hi : (es ++ run).Pairwise (·.index < ·.index)) :
    (db.write (run.map LeveldbStore.putEntry)).records = imageRecords (es ++ run) state snap := by
  induction run generalizing db es with
  | nil =>
    rw [append_nil]
    exact hr
  | cons e run ih =>
    have hl : ∀ x ∈ es, x.index < e.index := fun x hm => (pairwise_append.mp hi).2.2 x hm e (by simp)
    have put := records_putEntry hr (fun x hm => fit x (by simp [hm])) (fit e (by simp)) hl
    rw [append_cons] at fit hi ⊢
    exact ih put fit hi

/-- Deleting the keys of some entries leaves the others. -/
lemma records_deletes (fit : ∀ x ∈ es, x.Fits) (p : Nat → Bool) :
    (db.write (LeveldbStore.deletes ((es.filter (p ·.index)).map logRecord))).records =
      imageRecords (es.filter (!p ·.index)) state snap := by
  have hk : deletes ((es.filter (p ·.index)).map logRecord) =
      ((es.filter (p ·.index)).map fun e => logKey e.index).map .delete := by
    simp [deletes, logRecord]
  have he : ∀ e ∈ es, logKey e.index ∈ (es.filter (p ·.index)).map (fun e => logKey e.index) ↔ p e.index = true := by
    intro e hm
    constructor
    · intro hl
      obtain ⟨x, hc, hs⟩ := mem_map.mp hl
      obtain ⟨ht, hc⟩ := mem_filter.mp hc
      rwa [← (logKey_inj (fit x ht).1 (fit e hm).1).mp hs]
    · exact fun hc => mem_map_of_mem (mem_filter.mpr ⟨hm, hc⟩)
  have ho : ∀ r ∈ metaRecords state snap, r.1 ∉ (es.filter (p ·.index)).map fun e => logKey e.index := by
    intro r hm hl
    obtain ⟨x, -, hs⟩ := mem_map.mp hl
    exact (logKey_lt_meta hm x.index).ne hs
  rw [hk, SortedMap.records_write_deletes db _ fun _ _ => decide_eq_true_iff, hr, imageRecords, filter_append, filter_map]
  refine congrArg₂ (· ++ ·) (congrArg (map logRecord) (filter_congr fun e hm => ?_))
    (filter_eq_self.mpr fun r hm => decide_eq_true (ho r hm))
  rw [Function.comp_apply, Bool.eq_iff_iff, decide_eq_true_iff, Bool.not_eq_true', ← Bool.not_eq_true]
  exact not_congr (he e hm)

end

/-- What a call must not do for the stores to agree: the values are of the source's
types, a run of entries is contiguous, and entries are past the snapshot. -/
def StorageCall.Proper (mem : MemoryStore) : StorageCall → Prop
  | .saveHardState state => state.Fits
  | .saveSnapshotMetadata metadata => metadata.Fits
  | .append entries => entries.Pairwise (·.index < ·.index) ∧
      ∀ e ∈ entries, e.Fits ∧ mem.snapshot.lastIncludedIndex < e.index
  | .appendOne entry => entry.Fits ∧ (entry.index = 0 ∨ mem.snapshot.lastIncludedIndex < entry.index)
  | .truncatePrefix _ => True
  | .truncateSuffix firstRemoved => firstRemoved < 2 ^ 64
  | .resetToSnapshot metadata => metadata.Fits

namespace Mirrors

variable {mem : MemoryStore} {st : LeveldbStore}

variable {mem' : MemoryStore} {calls : List StorageCall} {index : Nat}

lemma saveHardState (hm : Mirrors mem st) (hf : s.Fits) : Mirrors (mem.saveHardState s) (st.saveHardState s) := by
  obtain ⟨state, snap, -, hs, hr⟩ := hm.image
  exact ⟨hm.increasing, hm.fit, hf, hm.snapshotFits, some s, snap, rfl, hs, records_putState hr s⟩

lemma saveSnapshotMetadata (hm : Mirrors mem st) (hf : m.Fits) :
    Mirrors (mem.saveSnapshotMetadata m) (st.saveSnapshotMetadata m) := by
  obtain ⟨state, snap, hs, -, hr⟩ := hm.image
  exact ⟨hm.increasing, hm.fit, hm.stateFits, hf, state, some m, hs, rfl, records_putSnapshot hr m⟩

lemma filter_below (i : Nat) (es : List LogEntry) : es.filter (fun e => !decide (i ≤ e.index)) = es.filter (·.index < i) :=
  filter_congr fun e _ => by rw [Bool.eq_iff_iff]; simp

lemma filter_from (i : Nat) (es : List LogEntry) : es.filter (fun e => !decide (e.index < i)) = es.filter (i ≤ ·.index) :=
  filter_congr fun e _ => by rw [Bool.eq_iff_iff]; simp

/-- The log without the entries from an index on. -/
lemma records_deleteSuffix (hm : Mirrors mem st) (hf : index < 2 ^ 64)
    (hr : st.db.records = imageRecords mem.entries state snap) :
    (st.db.write (st.deleteSuffix index)).records = imageRecords (mem.entries.filter (·.index < index)) state snap := by
  rw [deleteSuffix, logFrom_index hr hm.fit hf,
    records_deletes hr hm.fit fun i => decide (index ≤ i), filter_below]

/-- A store with another log, and the records to it. -/
lemma relog (hm : Mirrors mem st) (he : mem'.entries = es) (ha : mem'.state = mem.state) (hs : mem'.snapshot = mem.snapshot)
    (hi : es.Pairwise (·.index < ·.index)) (fit : ∀ e ∈ es, e.Fits)
    (hw : ∀ {state snap}, st.db.records = imageRecords mem.entries state snap →
      (st.db.write change).records = imageRecords es state snap) : Mirrors mem' { db := st.db.write change } := by
  obtain ⟨state, snap, hb, hf, hr⟩ := hm.image
  subst he
  exact ⟨hi, fit, ha ▸ hm.stateFits, hs ▸ hm.snapshotFits, state, snap, ha.trans hb, hs.trans hf, hw hr⟩

lemma truncateSuffix (hm : Mirrors mem st) (hf : index < 2 ^ 64) :
    Mirrors (mem.truncateSuffix index) (st.truncateSuffix index) :=
  hm.relog (mem.truncateSuffix_entries index) (MemoryStore.truncateSuffix_state mem index)
    (MemoryStore.truncateSuffix_snapshot mem index) (hm.increasing.filter _)
    (fun e he => hm.fit e (mem_of_mem_filter he)) (hm.records_deleteSuffix hf)

lemma recordsBelow_eq {es : List LogEntry} (fit : ∀ e ∈ es, e.Fits) (hi : es.Pairwise (·.index < ·.index)) (fk : Nat) :
    LeveldbStore.recordsBelow fk (es.map logRecord) = .ok ((es.filter (·.index < fk)).map logRecord) := by
  induction es with
  | nil => rfl
  | cons e es ih =>
    obtain ⟨hf, hr⟩ := forall_mem_cons.mp fit
    obtain ⟨hl, hi⟩ := pairwise_cons.mp hi
    rw [map_cons, recordsBelow, ih hr hi]
    simp only [logRecord, parseLogIndex_logKey hf.1, bind, Except.bind]
    split
    next hk =>
      have none : (e :: es).filter (·.index < fk) = [] := by
        refine filter_eq_nil_iff.mpr fun x hm => ?_
        rcases mem_cons.mp hm with rfl | hla
        · simpa using hk
        have := hl x hla
        simp only [decide_eq_true_eq]
        omega
      rw [none]
      rfl
    next hb =>
      rw [filter_cons_of_pos (by simpa using hb)]
      rfl

lemma truncatePrefix (hm : Mirrors mem st) (fk : Nat) :
    ∃ st', st.truncatePrefix fk = .ok st' ∧ Mirrors (mem.truncatePrefix fk) st' := by
  obtain ⟨state, snap, -, -, hr⟩ := hm.image
  have done : st.truncatePrefix fk = .ok { db := st.db.write (deletes
      ((mem.entries.filter (·.index < fk)).map logRecord)) } := by
    rw [LeveldbStore.truncatePrefix, logFrom_all hr, recordsBelow_eq hm.fit hm.increasing]
    rfl
  refine ⟨_, done, hm.relog (mem.truncatePrefix_entries fk) rfl rfl
    (hm.increasing.filter _) (fun e he => hm.fit e (mem_of_mem_filter he))
    fun hr => ?_⟩
  rw [records_deletes hr hm.fit fun i => decide (i < fk), filter_from]

lemma appendRun (hm : Mirrors mem st) (hi : (fr :: tl).Pairwise (·.index < ·.index)) (fit : ∀ e ∈ fr :: tl, e.Fits)
    (he : mem'.entries = mem.entries.filter (·.index < fr.index) ++ (fr :: tl))
    (hg : mem'.state = mem.state) (hs : mem'.snapshot = mem.snapshot) :
    Mirrors mem' { db := st.db.write (st.deleteSuffix fr.index ++ (fr :: tl).map putEntry) } := by
  have hw : (mem.entries.filter (·.index < fr.index) ++ (fr :: tl)).Pairwise (·.index < ·.index) := by
    refine pairwise_append.mpr ⟨hm.increasing.filter _, hi, fun a hb b ha => ?_⟩
    have hc : a.index < fr.index := by simpa using (mem_filter.mp hb).2
    rcases mem_cons.mp ha with rfl | hl
    · exact hc
    · exact hc.trans ((pairwise_cons.mp hi).1 b hl)
  have hf : ∀ e ∈ mem.entries.filter (·.index < fr.index) ++ (fr :: tl), e.Fits := by
    intro e hj
    rcases mem_append.mp hj with hb | ha
    · exact hm.fit e (mem_of_mem_filter hb)
    · exact fit e ha
  refine hm.relog he hg hs hw hf fun hr => ?_
  rw [SortedMap.write_append]
  exact records_putEntries (hm.records_deleteSuffix (fit fr (by simp)).1 hr) hf hw

lemma appendOne (hm : Mirrors mem st) (hp : (StorageCall.appendOne e).Proper mem) :
    Mirrors (mem.appendOne e) (st.appendOne e) := by
  obtain ⟨hf, hz | ha⟩ := hp
  · rw [LeveldbStore.appendOne, if_pos hz, MemoryStore.appendOne, if_pos (by omega)]
    exact hm
  rw [LeveldbStore.appendOne, if_neg (by omega)]
  exact hm.appendRun (pairwise_singleton _ _) (by simpa using hf)
    (mem.appendOne_entries ha) (MemoryStore.appendOne_state mem e)
    (MemoryStore.appendOne_snapshot mem e)

lemma append (ha : Mirrors mem st) (hp : (StorageCall.append es).Proper mem) : Mirrors (mem.append es) (st.append es) := by
  obtain ⟨hi, hf⟩ := hp
  have ho : InIndexOrder es := hi.imp Nat.le_of_lt
  match es with
  | [] => exact ha
  | [entry] => exact ha.appendOne ⟨(hf entry (by simp)).1, .inr (hf entry (by simp)).2⟩
  | front :: second :: tl =>
    have hk : MemoryStore.sortByIndex ((front :: second :: tl).filter (·.index ≠ 0)) = front :: second :: tl := by
      rw [filter_eq_self.mpr, MemoryStore.sortByIndex_of_ordered ho]
      intro e hm
      have := (hf e hm).2
      simp only [decide_eq_true_eq]
      omega
    rw [LeveldbStore.append, hk]
    · exact ha.appendRun hi (fun e hm => (hf e hm).1)
        (mem.append_entries ho fun e hm => (hf e hm).2)
        (MemoryStore.append_state mem _) (MemoryStore.append_snapshot mem _)
    · simp

lemma resetToSnapshot (hm : Mirrors mem st) (hf : m.Fits) :
    ∃ st', st.resetToSnapshot m = .ok st' ∧ Mirrors (mem.resetToSnapshot m) st' := by
  obtain ⟨state, snap, -, -, hr⟩ := hm.image
  obtain ⟨ht, hv, hc, ha⟩ := hm.stateFits
  refine ⟨_, by rw [LeveldbStore.resetToSnapshot, hm.loadHardState]; rfl, ?_⟩
  have he : (st.db.write (deletes (st.logFrom logPrefix))).records = imageRecords [] state snap := by
    have all := records_deletes hr hm.fit fun _ => true
    rw [logFrom_all hr]
    simpa using all
  have hb := records_putState (records_putSnapshot he m) (mem.resetToSnapshot m).state
  refine ⟨List.Pairwise.nil, by simp [MemoryStore.resetToSnapshot], ⟨ht, hv, max_lt hc hf.1, max_lt ha hf.1⟩, hf, _, some m,
    (Option.getD_some).symm, rfl, ?_⟩
  rw [SortedMap.write_append]
  exact hb

/-- A proper call succeeds on the image, and leaves the image. -/
lemma perform (hm : Mirrors mem st) (hp : call.Proper mem) :
    ∃ st', st.perform call = .ok st' ∧ Mirrors (mem.perform call) st' := by
  cases call with
  | saveHardState state => exact ⟨_, rfl, hm.saveHardState hp⟩
  | saveSnapshotMetadata md => exact ⟨_, rfl, hm.saveSnapshotMetadata hp⟩
  | append es => exact ⟨_, rfl, hm.append hp⟩
  | appendOne e => exact ⟨_, rfl, hm.appendOne hp⟩
  | truncatePrefix fk => exact hm.truncatePrefix fk
  | truncateSuffix fr => exact ⟨_, rfl, hm.truncateSuffix hp⟩
  | resetToSnapshot md => exact hm.resetToSnapshot hp

/-- A sequence of calls each of which is proper when it is made. -/
def Disciplined : MemoryStore → List StorageCall → Prop
  | _, [] => True
  | mem, call :: calls => call.Proper mem ∧ Disciplined (mem.perform call) calls

lemma performAll (hm : Mirrors mem st) (ha : Disciplined mem calls) :
    ∃ st', calls.foldlM LeveldbStore.perform st = .ok st' ∧ Mirrors (calls.foldl MemoryStore.perform mem) st' := by
  induction calls generalizing mem st with
  | nil => exact ⟨st, rfl, hm⟩
  | cons call calls ih =>
    obtain ⟨hd, done, hm⟩ := hm.perform ha.1
    obtain ⟨last, hr, hm⟩ := ih hm ha.2
    exact ⟨last, by rw [foldlM_cons, done]; exact hr, hm⟩

lemma Disciplined.take (ha : Disciplined mem calls) (cut : Nat) : Disciplined mem (calls.take cut) := by
  induction calls generalizing mem cut with
  | nil => simpa using ha
  | cons call calls ih =>
    cases cut with
    | zero => trivial
    | succ cut => exact ⟨ha.1, ih ha.2 cut⟩

end Mirrors

/-- The values of the call are of the source's types. -/
def LogCall.Fits : LogCall → Prop
  | .appendAsLeader term command => LogEntry.Fits { term, command }
  | .appendNoop term => LogEntry.Fits { term, type := .noOp }
  | .appendConfiguration term configuration => LogEntry.Fits { term, type := .configuration, configuration }
  | .appendFromLeader prevIndex _ entries => prevIndex < 2 ^ 64 ∧ ∀ e ∈ entries, e.Fits
  | .restoreSnapshot metadata => metadata.Fits
  | .createSnapshot metadata => metadata.Fits
  | .persist state => state.Fits

instance : (call : LogCall) → Decidable call.Fits
  | .appendAsLeader _ _ => inferInstanceAs (Decidable (LogEntry.Fits _))
  | .appendNoop _ => inferInstanceAs (Decidable (LogEntry.Fits _))
  | .appendConfiguration _ _ => inferInstanceAs (Decidable (LogEntry.Fits _))
  | .appendFromLeader _ _ _ => inferInstanceAs (Decidable (_ ∧ _))
  | .restoreSnapshot metadata => inferInstanceAs (Decidable metadata.Fits)
  | .createSnapshot metadata => inferInstanceAs (Decidable metadata.Fits)
  | .persist state => inferInstanceAs (Decidable state.Fits)

/-- The entries the call brings. -/
def LogCall.sent : LogCall → List LogEntry
  | .appendFromLeader _ _ entries => entries
  | _ => []

/-- The entries of the call are numbered one after the other. -/
def LogCall.Contiguous (call : LogCall) : Prop :=
  call.sent.IsChain fun a b => b.index = a.index + 1

instance (call : LogCall) : Decidable call.Contiguous := inferInstanceAs (Decidable (List.IsChain _ _))

/-- There is an index after that of a snapshot the node creates. -/
def LogCall.compacts : LogCall → Bool
  | .createSnapshot metadata => metadata.lastIncludedIndex + 1 < 2 ^ 64
  | _ => true

/-- The log begins after the snapshot. -/
def MemoryStore.Above (mem : MemoryStore) : Prop :=
  ∀ e ∈ mem.entries, mem.snapshot.lastIncludedIndex < e.index

namespace MemoryStore

variable {mem : MemoryStore}

lemma Above.snapshot_le (ha : mem.Above) : mem.snapshot.lastIncludedIndex ≤ mem.lastLogIndex := by
  unfold lastLogIndex
  cases hl : mem.entries.getLast? with
  | none => exact le_rfl
  | some e => exact (ha e (mem_of_getLast? hl)).le

variable {run : List LogEntry} {mem' : MemoryStore}

lemma Above.filter (ha : mem.Above) (he : mem'.entries = mem.entries.filter p) (snap : mem'.snapshot = mem.snapshot) :
    mem'.Above := by
  intro e hm
  rw [he] at hm
  rw [snap]
  exact ha e (mem_of_mem_filter hm)

lemma Above.extend (hc : mem.Above) (he : mem'.entries = mem.entries.filter p ++ run) (snap : mem'.snapshot = mem.snapshot)
    (hp : ∀ e ∈ run, mem.snapshot.lastIncludedIndex < e.index) : mem'.Above := by
  intro e hm
  rw [he] at hm
  rw [snap]
  rcases mem_append.mp hm with hb | ha
  · exact hc e (mem_of_mem_filter hb)
  · exact hp e ha

/-- What a log call needs to know of the calls it makes. -/
structure Issued (mem : MemoryStore) (calls : List StorageCall) (compacts : Bool) : Prop where
  disciplined : Mirrors.Disciplined mem calls
  above : compacts = true → (calls.foldl perform mem).Above

lemma issued_next (ha : mem.Above) (hl : mem.lastLogIndex < 2 ^ 64) {e : LogEntry} (hf : e.Fits) (compacts : Bool) :
    mem.Issued [.appendOne { e with index := (mem.lastLogIndex + 1) % 2 ^ 64 }] compacts := by
  have hb := ha.snapshot_le
  have hi : (mem.lastLogIndex + 1) % 2 ^ 64 = 0 ∨ (mem.lastLogIndex + 1) % 2 ^ 64 = mem.lastLogIndex + 1 := by omega
  refine ⟨⟨⟨⟨Nat.mod_lt _ (by decide), hf.2⟩, ?_⟩, trivial⟩, fun _ => ?_⟩
  · exact hi.imp_right fun next => (Nat.lt_succ_of_le hb).trans_eq next.symm
  rcases hi with hz | next
  · rw [hz]
    have hs : mem.appendOne { e with index := 0 } = mem := by rw [appendOne, if_pos (Nat.zero_le _)]
    exact hs ▸ ha
  rw [next]
  refine ha.extend (mem.appendOne_entries ?_) (appendOne_snapshot mem _) ?_
  · exact Nat.lt_succ_of_le hb
  · simpa using Nat.lt_succ_of_le hb

/-- The loop keeps a suffix of the entries, and cuts the log where that begins. -/
lemma scan_eq (si : Nat) (es : List LogEntry) :
    ∃ cut tl, LogCall.scan mem.queries si es = .ok (cut, tl) ∧ tl <:+ es ∧ ∀ i ∈ cut, ∃ e ∈ es, e.index = i := by
  induction es with
  | nil => exact ⟨none, [], rfl, suffix_rfl, by simp⟩
  | cons ent es ih =>
    obtain ⟨cut, tl, hs, hk, hf⟩ := ih
    have hl : (∃ cut' rest', LogCall.scan mem.queries si es = .ok (cut', rest') ∧
        rest' <:+ ent :: es ∧ ∀ i ∈ cut', ∃ e ∈ ent :: es, e.index = i) := by
      refine ⟨cut, tl, hs, hk.trans (suffix_cons ent es), fun i hc => ?_⟩
      obtain ⟨e, hm, ha⟩ := hf i hc
      exact ⟨e, mem_cons_of_mem ent hm, ha⟩
    unfold LogCall.scan
    split
    · exact hl
    simp only [queries, bind, Except.bind]
    split
    · exact ⟨some ent.index, ent :: es, rfl, suffix_rfl, by simp⟩
    split
    · exact ⟨none, ent :: es, rfl, suffix_rfl, by simp⟩
    · exact hl

lemma issued_entries (ha : mem.Above) {cut : Option Nat} (hc : ∀ i ∈ cut, i < 2 ^ 64) (hi : run.Pairwise (·.index < ·.index))
    (hf : ∀ e ∈ run, e.Fits ∧ mem.snapshot.lastIncludedIndex < e.index) (compacts : Bool) :
    mem.Issued (cut.toList.map .truncateSuffix ++ if run = [] then [] else [.append run]) compacts := by
  have hp : ∀ {mem' : MemoryStore}, mem'.Above → mem'.snapshot = mem.snapshot →
      mem'.Issued (if run = [] then [] else [.append run]) compacts := by
    intro mem' ha hb
    rw [← hb] at hf
    cases run with
    | nil => exact ⟨trivial, fun _ => ha⟩
    | cons fr tl =>
      refine ⟨⟨⟨hi, hf⟩, trivial⟩, fun _ => ?_⟩
      exact ha.extend (mem'.append_entries (hi.imp Nat.le_of_lt) fun e hm =>
        (hf e hm).2) (append_snapshot mem' _) fun e hm => (hf e hm).2
  cases cut with
  | none => exact hp ha rfl
  | some i =>
    have hs := hp (ha.filter (mem.truncateSuffix_entries i) (truncateSuffix_snapshot mem i)) (truncateSuffix_snapshot mem i)
    exact ⟨⟨hc i rfl, hs.disciplined⟩, hs.above⟩

lemma issued_appendEntries (ha : mem.Above) (fit : ∀ e ∈ es, e.Fits) (hc : es.IsChain fun a b => b.index = a.index + 1) :
    ∃ calls, LogCall.appendEntries mem.queries prevIndex pt es = .ok calls ∧ mem.Issued calls compacts := by
  have hi : es.Pairwise (·.index < ·.index) := isChain_iff_pairwise.mp (hc.imp fun a b next => by omega)
  obtain ⟨cut, tl, hs, hk, hf⟩ := mem.scan_eq mem.snapshot.lastIncludedIndex es
  have run : (tl.filter fun e => !decide (e.index ≤ mem.snapshot.lastIncludedIndex)).Sublist es :=
    filter_sublist.trans hk.sublist
  have ht (i : Nat) (hu : i ∈ cut) : i < 2 ^ 64 := by
    obtain ⟨e, he, rfl⟩ := hf i hu
    exact (fit e he).1
  simp only [LogCall.appendEntries, queries, loadSnapshotMetadata, bind, Except.bind]
  split
  · exact ⟨[], rfl, trivial, fun _ => ha⟩
  change ∃ calls, (LogCall.scan mem.queries _ es >>= _) = _ ∧ _
  rw [hs]
  refine ⟨_, rfl, issued_entries ha ht (hi.sublist run) (fun e hm => ?_) compacts⟩
  exact ⟨fit e (run.subset hm), by simpa using (mem_filter.mp hm).2⟩

/-- Whatever a node asks of its log manager, the calls are proper, and the log still
begins after the snapshot once they are done. -/
lemma issues_eq (ha : mem.Above) (hl : mem.lastLogIndex < 2 ^ 64) {call : LogCall} (hf : call.Fits) (hc : call.Contiguous) :
    ∃ calls, call.issues mem.queries = .ok calls ∧ mem.Issued calls call.compacts := by
  cases call with
  | appendAsLeader t cmd | appendNoop t | appendConfiguration t conf => exact ⟨_, rfl, issued_next ha hl hf _⟩
  | appendFromLeader prevIndex pt es => exact issued_appendEntries ha hf.2 hc
  | restoreSnapshot md =>
    refine ⟨_, rfl, ?_⟩
    split
    · exact ⟨⟨hf, trivial⟩, fun _ => by simp [Above, perform, resetToSnapshot]⟩
    · exact ⟨trivial, fun _ => ha⟩
  | createSnapshot md =>
    refine ⟨_, rfl, ⟨hf, trivial, trivial⟩, fun ho => ?_⟩
    have next : (md.lastIncludedIndex + 1) % 2 ^ 64 = md.lastIncludedIndex + 1 := Nat.mod_eq_of_lt (of_decide_eq_true ho)
    intro e hm
    simp only [foldl_cons, foldl_nil, perform, next, truncatePrefix_entries] at hm
    exact of_decide_eq_true (mem_filter.mp hm).2
  | persist st => exact ⟨_, rfl, ⟨hf, trivial⟩, fun _ => ha⟩

end MemoryStore

variable {mem : MemoryStore} {st : LeveldbStore}

lemma Mirrors.lastLogIndex_lt (hm : Mirrors mem st) : mem.lastLogIndex < 2 ^ 64 := by
  unfold MemoryStore.lastLogIndex
  cases hl : mem.entries.getLast? with
  | none => exact hm.snapshotFits.1
  | some e => exact (hm.fit e (mem_of_getLast? hl)).1

lemma Mirrors.serve (hm : Mirrors mem st) (ha : mem.Above) (he : call.Fits) (hc : call.Contiguous) (ho : call.compacts = true) :
    ∃ mem' st', mem.serve call = .ok mem' ∧ st.serve call = .ok st' ∧ Mirrors mem' st' ∧ mem'.Above := by
  obtain ⟨calls, hi, hf⟩ := MemoryStore.issues_eq ha hm.lastLogIndex_lt he hc
  obtain ⟨st', done, hb⟩ := hm.performAll hf.disciplined
  refine ⟨_, st', ?_, ?_, hb, hf.above ho⟩
  · rw [MemoryStore.serve, hi]
    rfl
  · rw [LeveldbStore.serve, hm.queries, hi]
    exact done

lemma mirrors_empty : Mirrors {} {} where
  increasing := List.Pairwise.nil
  fit := by simp
  stateFits := by decide
  snapshotFits := by decide
  image := ⟨none, none, rfl, rfl, rfl⟩

lemma Mirrors.serveAll (calls : List LogCall) (hm : Mirrors mem st) (ha : mem.Above) (fit : ∀ c ∈ calls, c.Fits)
    (hc : ∀ c ∈ calls, c.Contiguous) (ho : ∀ c ∈ calls, c.compacts = true) :
    ∃ mem' st', calls.foldlM MemoryStore.serve mem = .ok mem' ∧
      calls.foldlM LeveldbStore.serve st = .ok st' ∧ Mirrors mem' st' ∧ mem'.Above := by
  induction calls generalizing mem st with
  | nil => exact ⟨mem, st, rfl, rfl, hm, ha⟩
  | cons call calls ih =>
    rw [forall_mem_cons] at fit hc ho
    obtain ⟨mem', st', hs, ht, hm, ha⟩ := hm.serve ha fit.1 hc.1 ho.1
    rw [foldlM_cons, foldlM_cons, hs, ht]
    exact ih hm ha fit.2 hc.2 ho.2

/-- Served the same calls from the beginning, the two stores answer every query alike, at
every point, as long as no node has created a snapshot at the largest index. -/
theorem leveldb_refines_memory (calls : List LogCall) (next : LogCall) (cut : Nat)
    (fit : ∀ c ∈ next :: calls, c.Fits) (contiguous : ∀ c ∈ next :: calls, c.Contiguous)
    (compacts : ∀ c ∈ calls, c.compacts = true) :
    ∃ mem st, (calls.foldlM MemoryStore.serve {} >>= fun mem => mem.serveFirst cut next) = .ok mem ∧
      (calls.foldlM LeveldbStore.serve {} >>= fun st => st.serveFirst cut next) = .ok st ∧
      st.queries = mem.queries := by
  rw [forall_mem_cons] at fit contiguous
  obtain ⟨mem, st, hs, ht, hm, ha⟩ :=
    mirrors_empty.serveAll calls (by simp [MemoryStore.Above]) fit.2 contiguous.2 compacts
  obtain ⟨made, hi, hf⟩ :=
    MemoryStore.issues_eq ha hm.lastLogIndex_lt fit.1 contiguous.1
  obtain ⟨st', done, hb⟩ := hm.performAll (hf.disciplined.take cut)
  refine ⟨_, st', ?_, ?_, hb.queries⟩
  · rw [hs]
    simp only [bind, Except.bind, MemoryStore.serveFirst, hi]
    rfl
  rw [ht]
  simp only [bind, Except.bind, LeveldbStore.serveFirst, hm.queries, hi]
  exact done

private def replayed : List LogCall :=
  [.appendNoop 1, .appendAsLeader 1 "set x", .persist { currentTerm := 1, votedFor := "n1", commitIndex := 2 },
    .createSnapshot { lastIncludedIndex := 2, lastIncludedTerm := 1 },
    .appendFromLeader 2 1 [{ index := 3, term := 1 }, { index := 4, term := 1 }]]

theorem leveldb_refines_memory_replay :
    ∃ mem st, (replayed.foldlM MemoryStore.serve {} >>= fun mem =>
        mem.serveFirst 1 (.appendFromLeader 3 1 [{ index := 4, term := 2 }])) = .ok mem ∧
      (replayed.foldlM LeveldbStore.serve {} >>= fun st =>
        st.serveFirst 1 (.appendFromLeader 3 1 [{ index := 4, term := 2 }])) = .ok st ∧
      st.queries = mem.queries :=
  leveldb_refines_memory replayed (.appendFromLeader 3 1 [{ index := 4, term := 2 }]) 1 (by decide) (by decide) (by decide)

/-- A snapshot created at the largest index over a log that is behind it removes nothing,
because the index to keep from wraps around; the next entry is kept by one store only. -/
theorem no_op_after_wrapped_compaction :
    let calls : List LogCall :=
      [.restoreSnapshot { lastIncludedIndex := 2 ^ 64 - 1, lastIncludedTerm := 1 },
        .restoreSnapshot { lastIncludedIndex := 3, lastIncludedTerm := 1 },
        .appendFromLeader 3 1 [{ index := 4, term := 1 }],
        .createSnapshot { lastIncludedIndex := 2 ^ 64 - 1 }, .appendNoop 2]
    (calls.foldlM MemoryStore.serve {}).bind (·.queries.lastLogIndex) = .ok 4 ∧
      (calls.foldlM LeveldbStore.serve {}).bind (·.queries.lastLogIndex) = .ok 5 := by
  decide +kernel

end Cnetmod.Raft
