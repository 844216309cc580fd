import Cnetmod.Raft.Spec.Moves

/-!
# The methods as sequences of moves

One lemma per method of `raft_node`, ending in `react_activity`.
-/
namespace Cnetmod.Raft

open List RaftStorage LogManager Option Activity

variable {n0 : RaftNode} {inp : Input}

namespace ProgressTracker

lemma get_update (t : ProgressTracker) (peer o : NodeId) (change : PeerProgress → PeerProgress) :
    (t.update peer change).get o = (t.get o).map fun p => if o = peer then change p else p := by
  unfold get update
  induction t.peers with
  | nil => rfl
  | cons slot tl ih =>
    by_cases hh : slot.1 = o
    · by_cases ht : slot.1 = peer
      · subst hh ht
        simp
      · subst hh
        simp [ht]
    by_cases ht : slot.1 = peer
    · simp only [map_cons, ht, if_true]
      rw [find?_cons_of_neg (by simpa [← ht] using hh), find?_cons_of_neg (by simpa using hh)]
      exact ih
    simp only [map_cons, ht, if_false]
    rw [find?_cons_of_neg (by simpa using hh), find?_cons_of_neg (by simpa using hh)]
    exact ih

lemma reset_fresh (peers : List NodeId) (nextIndex cap : Nat) (self : NodeId) : (reset peers nextIndex cap).Fresh self := by
  intro peer p _ hf
  obtain ⟨slot, hit, rfl⟩ := map_eq_some_iff.mp hf
  have hm := mem_of_find?_eq_some hit
  obtain ⟨id, _, rfl⟩ := mem_map.mp hm
  rfl

lemma Fresh.update_self {t : ProgressTracker} (hr : t.Fresh self)
    (change : PeerProgress → PeerProgress) : (t.update self change).Fresh self := by
  intro peer p ho hf
  rw [get_update] at hf
  obtain ⟨q, hh, rfl⟩ := map_eq_some_iff.mp hf
  rw [if_neg ho]
  exact hr peer q ho hh

/-- An update that leaves match indexes alone. -/
lemma update_matchIndex (t : ProgressTracker) (peer o : NodeId) (hs : ∀ p, (change p).matchIndex = p.matchIndex) :
    ((t.update peer change).get o).map (·.matchIndex) = (t.get o).map (·.matchIndex) := by
  rw [get_update, Option.map_map]
  congr 1
  funext p
  split
  · exact hs p
  · rfl

end ProgressTracker

lemma LogManager.appendNext_eq (st : RaftStorage) (e : LogEntry) :
    (∃ thrown, appendNext st e = (.error thrown, { st with faults := st.faults.drop 1 })) ∨
      appendNext st e = (.ok { e with index := st.mem.lastLogIndex + 1 },
        { mem := st.mem.appendOne { e with index := st.mem.lastLogIndex + 1 }
          faults := st.faults.drop 1 }) := by
  unfold appendNext appendOne
  rcases st.write_eq (·.appendOne { e with index := st.mem.lastLogIndex + 1 }) with
    ⟨thrown, hf⟩ | hw
  · exact .inl ⟨thrown, by simp [hf]⟩
  · exact .inr (by simp [hw])

/-- Only the log differs, by entries that were offered. -/
structure MemoryStore.LogWritten (offered : List LogEntry) (a b : MemoryStore) : Prop where
  state : b.state = a.state
  snapshot : b.snapshot = a.snapshot
  entries : ∀ e ∈ b.entries, e ∈ a.entries ∨ e ∈ offered

namespace MemoryStore

variable {off : List LogEntry} {a b c : MemoryStore}

lemma LogWritten.refl (off : List LogEntry) (a : MemoryStore) : a.LogWritten off a :=
  ⟨rfl, rfl, fun _ hm => .inl hm⟩

lemma LogWritten.trans (hf : a.LogWritten off b) (hs : b.LogWritten off c) : a.LogWritten off c where
  state := hs.state.trans hf.state
  snapshot := hs.snapshot.trans hf.snapshot
  entries e hm := (hs.entries e hm).elim (hf.entries e) .inr

lemma truncateSuffix_written (off : List LogEntry) (a : MemoryStore) (i : Nat) : a.LogWritten off (a.truncateSuffix i) := by
  refine ⟨a.truncateSuffix_state i, a.truncateSuffix_snapshot i, fun e hm => ?_⟩
  unfold truncateSuffix at hm
  split at hm
  · simp at hm
  · exact .inl (mem_of_mem_take hm)

lemma extend_written (hs : InIndexOrder run) (ha : ∀ x ∈ a.entries, ∀ y ∈ run, x.index ≤ y.index) (sub : ∀ e ∈ run, e ∈ off) :
    a.LogWritten off (a.extend run hs ha) :=
  ⟨rfl, rfl, fun e hm => (mem_append.mp hm).imp_right (sub e)⟩

lemma appendOne_written (a : MemoryStore) (hk : ent ∈ off) : a.LogWritten off (a.appendOne ent) := by
  have only : ∀ e ∈ [ent], e ∈ off := by simpa using hk
  unfold appendOne
  split
  · exact .refl _ _
  split
  · exact extend_written _ _ only
  · exact (truncateSuffix_written _ _ _).trans (extend_written _ _ only)

lemma append_written (a : MemoryStore) (sub : ∀ e ∈ es, e ∈ off) : a.LogWritten off (a.append es) := by
  unfold append
  split
  · exact a.appendOne_written (sub _ (by simp))
  split
  · exact .refl _ _
  rename_i front rest hs
  refine (truncateSuffix_written _ _ _).trans (extend_written _ _ fun e hm => ?_)
  rw [← hs, sortByIndex, mem_insertionSort] at hm
  exact sub e (mem_filter.mp hm).1

end MemoryStore

lemma RaftStorage.write_written {st s : RaftStorage} (hw : ∀ a, MemoryStore.LogWritten off a (change a))
    (ran : st.write change = (r, s)) : st.mem.LogWritten off s.mem := by
  rcases st.write_eq change with ⟨thrown, hf⟩ | hwr
  · cases hf.symm.trans ran
    exact .refl _ _
  · cases hwr.symm.trans ran
    exact hw st.mem

namespace LogManager

variable {ps st : RaftStorage}

lemma truncateAt_written (off : List LogEntry) (ran : truncateAt st i = (r, ps)) : st.mem.LogWritten off ps.mem := by
  cases i with
  | none =>
    cases ran
    exact .refl _ _
  | some i => exact write_written (fun a => a.truncateSuffix_written off i) ran

lemma scanFromLeader_toAppend (mem : MemoryStore) (si : Nat) (es : List LogEntry)
    (hm : e ∈ (scanFromLeader mem si matchIndex es).toAppend) : e ∈ es := by
  induction es generalizing matchIndex with
  | nil => simp [scanFromLeader] at hm
  | cons ent tl ih =>
    unfold scanFromLeader at hm
    split at hm
    · exact mem_cons_of_mem _ (ih hm)
    dsimp only at hm
    split at hm
    · exact hm
    split at hm
    · exact hm
    · exact mem_cons_of_mem _ (ih hm)

lemma appendFromLeader_success {prev pt : Nat} {es : List LogEntry} {app : AppendResult}
    (ran : appendFromLeader st prev pt es = (.ok app, ps)) :
    app.success = matches_ st prev pt ∧ (app.success = false → ps = st) := by
  unfold appendFromLeader at ran
  split at ran
  · rename_i hm
    cases ran
    unfold conflictResult
    dsimp only
    split <;> simpa using hm
  rename_i hm
  suffices hs : app.success = true by simpa [hs] using hm
  dsimp only at ran
  split at ran
  · cases ran
  split at ran
  · cases ran
    rfl
  split at ran <;> cases ran
  rfl

/-- However far a follower's append gets, it writes to the log only, and only what
the leader sent. -/
lemma appendFromLeader_written {prev pt : Nat} {es : List LogEntry} {r : Except Thrown AppendResult}
    (ran : appendFromLeader st prev pt es = (r, s)) : st.mem.LogWritten es s.mem := by
  unfold appendFromLeader at ran
  split at ran
  · cases ran
    exact .refl _ _
  dsimp only at ran
  split at ran
  · rename_i hf
    cases ran
    exact truncateAt_written es hf
  rename_i cut done
  have hk := truncateAt_written es done
  split at ran
  · cases ran
    exact hk
  have hw : ∀ {r s}, cut.append
        ((scanFromLeader st.mem st.mem.loadSnapshotMetadata.lastIncludedIndex prev
          es).toAppend.filter fun e => !decide (e.index ≤ st.mem.loadSnapshotMetadata.lastIncludedIndex)) =
        (r, s) → st.mem.LogWritten es s.mem := by
    intro r s ran
    refine hk.trans (write_written (fun a => a.append_written ?_) ran)
    exact fun e hm => scanFromLeader_toAppend _ _ _ (mem_filter.mp hm).1
  split at ran
  · rename_i hf
    cases ran
    exact hw hf
  rename_i ha
  cases ran
  exact hw ha

end LogManager

variable {ent : LogEntry} {st : MemoryStore}

/-- What was stored stays stored when an entry is added at the end. -/
lemma MemoryStore.mem_appendOne (next : ent.index = st.lastLogIndex + 1) (hm : x ∈ st.entries) :
    x ∈ (st.appendOne ent).entries := by
  unfold appendOne
  split
  · exact hm
  · exact mem_append_left _ hm

/-- Unless a snapshot already covers its index, an entry added at the end is the last. -/
lemma MemoryStore.getLast_appendOne (next : ent.index = st.lastLogIndex + 1)
    (ha : st.snapshot.lastIncludedIndex < ent.index) : (st.appendOne ent).entries.getLast? = some ent := by
  unfold appendOne
  rw [if_neg (by omega), dif_pos next]
  simp [extend]

lemma MemoryStore.of_entryAt (hf : st.entryAt i = some ent) : ent ∈ st.entries ∧ ent.index = i := by
  rw [entryAt_eq, filter_eq_some_iff] at hf
  exact ⟨mem_of_getElem? hf.1, of_decide_eq_true hf.2⟩

lemma MemoryStore.entriesFrom_length_le (st : MemoryStore) (hd n : Nat) : (st.entriesFrom hd n).length ≤ n :=
  length_take_le _ _

/-- The caller reports the index of the entry it was given. -/
lemma FsmCaller.applyEntry_ok {f fsm : FsmCaller} (ok : f.applyEntry ent = (.ok applied, fsm)) : applied = ent.index := by
  unfold applyEntry at ok
  split at ok
  · simp at ok
  split at ok
  · simp only [Prod.mk.injEq, Except.ok.injEq] at ok
    exact ok.1.symm
  split at ok
  · split at ok
    · simp at ok
    · simp only [Prod.mk.injEq, Except.ok.injEq] at ok
      exact ok.1.symm
  · simp only [Prod.mk.injEq, Except.ok.injEq] at ok
    exact ok.1.symm

namespace RaftNode

variable (n : RaftNode)

lemma stop_activity (e : RaftError) : Activity n0 inp n (n.stop e) [] := .of_move (.stop n e)

lemma persist_activity : Activity n0 inp n n.persist [] :=
  .of_move (.persist n)

/-- The three outcomes of `persist`. -/
lemma persist_eq : (n.stopped = true ∧ n.persist = n) ∨ (n.stopped = false ∧ n.persist = { n with
        store := { mem := n.mem.saveHardState n.state, faults := n.store.faults.drop 1 } }) ∨
      (n.stopped = false ∧ ∃ error, n.persist =
        { n with store := { mem := n.mem, faults := n.store.faults.drop 1 } }.stop error) := by
  unfold persist
  cases hs : n.stopped with
  | true => exact .inl ⟨rfl, by simp⟩
  | false =>
    unfold saveHardState
    rcases n.store.write_eq (·.saveHardState n.state) with ⟨thrown, hf⟩ | hw
    · rw [hf]
      exact .inr (.inr ⟨rfl, _, rfl⟩)
    · rw [hw]
      exact .inr (.inl ⟨rfl, rfl⟩)

section

variable (error : RaftError)

@[simp] lemma stop_cfg : (n.stop error).cfg = n.cfg := by
  unfold stop
  split <;> rfl

@[simp] lemma stop_store : (n.stop error).store = n.store := by
  unfold stop
  split <;> rfl

@[simp] lemma stop_state : (n.stop error).state = n.state := by
  unfold stop
  split <;> rfl

@[simp] lemma stop_conf : (n.stop error).conf = n.conf := by
  unfold stop
  split <;> rfl

@[simp] lemma stop_history : (n.stop error).history = n.history := by
  unfold stop
  split <;> rfl

@[simp] lemma stop_stopped : (n.stop error).stopped = true := by
  unfold stop
  split
  · assumption
  · rfl

lemma stop_role : (n.stop error).role = n.role ∨ (n.stop error).role = .follower := by
  unfold stop
  split
  · exact .inl rfl
  · exact .inr rfl

end

/-- `persist` only writes the hard state, and at worst stops the node. -/
structure Persisted (n m : RaftNode) : Prop where
  cfg : m.cfg = n.cfg
  state : m.state = n.state
  conf : m.conf = n.conf
  history : m.history = n.history
  entries : m.mem.entries = n.mem.entries
  snapshot : m.mem.snapshot = n.mem.snapshot
  role : m.role = n.role ∨ m.role = .follower
  running : m.stopped = false → m.role = n.role ∧ m.votesGranted = n.votesGranted ∧ n.stopped = false

lemma persist_persisted : Persisted n n.persist := by
  rcases n.persist_eq with ⟨_, hs⟩ | ⟨hr, hw⟩ | ⟨hr, e, hf⟩
  · rw [hs]
    exact ⟨rfl, rfl, rfl, rfl, rfl, rfl, .inl rfl, fun hr => ⟨rfl, rfl, hr⟩⟩
  · rw [hw]
    exact ⟨rfl, rfl, rfl, rfl, rfl, rfl, .inl rfl, fun _ => ⟨rfl, rfl, hr⟩⟩
  · rw [hf]
    exact ⟨by simp, by simp, by simp, by simp, by simp [mem], by simp [mem], stop_role _ _, by simp⟩

@[simp] lemma persist_cfg : n.persist.cfg = n.cfg := n.persist_persisted.cfg
@[simp] lemma persist_id (n : RaftNode) : n.persist.id = n.id :=
  congrArg RaftConfig.id n.persist_cfg
@[simp] lemma persist_state (n : RaftNode) : n.persist.state = n.state :=
  n.persist_persisted.state
@[simp] lemma persist_conf (n : RaftNode) : n.persist.conf = n.conf := n.persist_persisted.conf
@[simp] lemma persist_history (n : RaftNode) : n.persist.history = n.history :=
  n.persist_persisted.history
@[simp] lemma persist_entries (n : RaftNode) : n.persist.mem.entries = n.mem.entries :=
  n.persist_persisted.entries
@[simp] lemma persist_snapshot (n : RaftNode) : n.persist.mem.snapshot = n.mem.snapshot :=
  n.persist_persisted.snapshot

lemma quiet_activity {n m : RaftNode} (hs : m.core = n.core)
    (hc : m.lastQuorumContact = n.lastQuorumContact ∨ mayRefresh n0 inp n.state.currentTerm := by exact .inl rfl) :
    Activity n0 inp n m [] :=
  .of_move (.quiet hs hc)

lemma stepDown_activity (le : n.state.currentTerm ≤ t) : Activity n0 inp n (n.stepDown t) [] := by
  unfold stepDown
  split
  · exact .done n
  by_cases hs : t = n.state.currentTerm
  · refine after (.of_move (.retire n)) (after (quiet_activity ?_) (persist_activity _))
    simp [core, hs, resetElectionDeadline]
  · refine after (.of_move (.newTerm n t (by omega))) (after (quiet_activity ?_) (persist_activity _))
    simp [core, hs, resetElectionDeadline]

variable {m : RaftNode}

variable (n0 inp) in
/-- An append at the end of the leader's log goes through, or throws. -/
lemma appendNext_activity (e : LogEntry) (hl : n.role = .leader) (hs : e.term = n.state.currentTerm)
    (hk : e.type = .configuration → ∃ change next,
      inp = .call (.changeConfiguration change) ∧ change.apply n0.conf = .ok next ∧ e.configuration = next.state) :
    (∃ thrown ps, LogManager.appendNext n.store e = (.error thrown, ps) ∧ Activity n0 inp n { n with store := ps } []) ∨
    (∃ ps, appendNext n.store e = (.ok { e with index := n.lastLogIndex + 1 }, ps) ∧
      Activity n0 inp n { n with store := ps } [] ∧
      ps.mem = n.mem.appendOne { e with index := n.lastLogIndex + 1 }) := by
  rcases appendNext_eq n.store e with ⟨thrown, hf⟩ | hw
  · exact .inl ⟨thrown, _, hf, .of_move (.fault n)⟩
  · exact .inr ⟨_, hw, .of_move (.append n _ hl rfl hs hk), rfl⟩

/-- An applied configuration is adopted. A leader that is still a voter of a joint
one appends the entry that leaves it along with that. -/
lemma adoptConfiguration_activity (fsm : FsmCaller) (e : LogEntry)
    (hs : e ∈ n.mem.entries) (next : e.index = n.state.lastApplied + 1)
    (due : e.index ≤ n.state.commitIndex) (may : mayApply n0 inp e.index = true)
    (hk : e.type = .configuration) (he : n.role = .leader ∨ n.role = .follower) :
    Activity n0 inp n (adoptConfiguration { n with fsm := fsm, state.lastApplied := e.index } e) [] := by
  generalize hap : { n with fsm := fsm, state.lastApplied := e.index } = k
  have ha : Activity n0 inp n (k.takeConfiguration e) [] := by
    rw [← hap]
    exact after (.of_move (.adopt n e hs next due may hk he)) (quiet_activity rfl)
  unfold adoptConfiguration
  dsimp only
  split
  · exact ha.after (stepDown_activity _ (le_rfl))
  split
  · rename_i hl
    split
    · exact ha
    rename_i conf _
    unfold LogManager.appendConfiguration
    rcases appendNext_eq (k.takeConfiguration e).store
      { term := (k.takeConfiguration e).state.currentTerm, type := .configuration
        configuration := conf.state } with ⟨thrown, hf⟩ | hw
    · rw [hf]
      exact ha.after (after (.of_move (.fault _)) (stop_activity _ _))
    rw [hw]
    subst hap
    refine after (.of_move (.adoptLeaving n e
      { index := n.lastLogIndex + 1, term := n.state.currentTerm, type := .configuration
        configuration := conf.state } hs next due may hk hl.2 hl.1 rfl rfl))
      (after (quiet_activity ?_) (.of_move (.selfProgress _ _)))
    rfl
  · exact ha

/-- What the next round of an apply loop relies on. -/
structure Ongoing (n m : RaftNode) : Prop where
  cfg : m.cfg = n.cfg
  currentTerm : m.state.currentTerm = n.state.currentTerm
  commitIndex : m.state.commitIndex = n.state.commitIndex
  stored : ∀ e ∈ n.mem.entries, e ∈ m.mem.entries
  settled : n.role = .leader ∨ n.role = .follower → m.role = .leader ∨ m.role = .follower

lemma Ongoing.refl : Ongoing n n :=
  ⟨rfl, rfl, rfl, fun _ hh => hh, fun hh => hh⟩

lemma Ongoing.trans {n k : RaftNode} (hf : Ongoing n m) (hs : Ongoing m k) : Ongoing n k :=
  ⟨hs.cfg.trans hf.cfg, hs.currentTerm.trans hf.currentTerm, hs.commitIndex.trans hf.commitIndex, fun e hm =>
    hs.stored e (hf.stored e hm), fun he => hs.settled (hf.settled he)⟩

lemma Ongoing.of_persisted {n : RaftNode} (hp : Persisted n m) : Ongoing n m where
  cfg := hp.cfg
  currentTerm := by rw [hp.state]
  commitIndex := by rw [hp.state]
  stored e hm := by rwa [hp.entries]
  settled := by
    rintro hs
    rcases hp.role with hsa | hf
    · rwa [hsa]
    · exact .inr hf

lemma stop_ongoing (error : RaftError) : Ongoing n (n.stop error) where
  cfg := by simp
  currentTerm := by simp
  commitIndex := by simp
  stored e hm := by simpa [mem] using hm
  settled hs := by
    rcases n.stop_role error with hsa | hf
    · rwa [hsa]
    · exact .inr hf

lemma stepDown_ongoing : Ongoing n (n.stepDown n.state.currentTerm) := by
  unfold stepDown
  split
  · exact .refl n
  · refine Ongoing.trans ?_ (.of_persisted (persist_persisted _))
    exact ⟨rfl, by simp [resetElectionDeadline], by simp [resetElectionDeadline], fun _ hh => hh, fun _ => .inr rfl⟩

lemma adoptConfiguration_ongoing (ent : LogEntry) : Ongoing n (n.adoptConfiguration ent) := by
  have ht : Ongoing n (n.takeConfiguration ent) := ⟨rfl, rfl, rfl, fun _ hh => hh, fun hh => hh⟩
  refine ht.trans ?_
  unfold adoptConfiguration
  generalize n.takeConfiguration ent = n
  dsimp only
  split
  · exact stepDown_ongoing n
  split
  · split
    · exact .refl n
    rename_i next _
    unfold LogManager.appendConfiguration
    rcases LogManager.appendNext_eq n.store { term := n.state.currentTerm
                                              type := .configuration
                                              configuration := next.state } with
      ⟨thrown, hf⟩ | hw
    · rw [hf]
      refine Ongoing.trans ?_ (stop_ongoing _ _)
      exact ⟨rfl, rfl, rfl, fun _ hh => hh, fun hh => hh⟩
    · rw [hw]
      exact ⟨rfl, rfl, rfl, fun e hm => MemoryStore.mem_appendOne rfl hm, fun hh => hh⟩
  · exact .refl n

lemma applyOne_activity (e : LogEntry) (hs : e ∈ n.mem.entries)
    (due : e.index ≤ n.state.commitIndex) (may : mayApply n0 inp e.index = true)
    (he : n.role = .leader ∨ n.role = .follower) : Activity n0 inp n (n.applyOne e).1 [] := by
  unfold applyOne
  split
  · exact .done n
  rename_i next
  have next : e.index = n.state.lastApplied + 1 := by simpa using next
  have hp : Activity n0 inp n _ [] := .of_move (.pass n e hs next due)
  dsimp only
  split
  · refine hp.after (after (quiet_activity ?_) (stop_activity _ _))
    rfl
  rename_i applied fsm ok
  have hi := FsmCaller.applyEntry_ok ok
  subst hi
  refine hp.after ?_
  split
  · rename_i hk
    exact after (adoptConfiguration_activity
      { n with history.passed := n.history.passed ++ [e] } fsm e hs next due may
      hk he) (persist_activity _)
  refine after (.of_move (.applied
    { n with history.passed := n.history.passed ++ [e] } e hs next due))
    (after (quiet_activity ?_) (persist_activity _))
  rfl

lemma applyOne_ongoing (e : LogEntry) : Ongoing n (n.applyOne e).1 := by
  unfold applyOne
  split
  · exact .refl n
  dsimp only
  split
  · refine Ongoing.trans ?_ (stop_ongoing _ _)
    exact ⟨rfl, rfl, rfl, fun _ hh => hh, fun hh => hh⟩
  refine Ongoing.trans ?_ (.of_persisted (persist_persisted _))
  split
  · refine Ongoing.trans ?_ (adoptConfiguration_ongoing _ e)
    exact ⟨rfl, rfl, rfl, fun _ hh => hh, fun hh => hh⟩
  · exact ⟨rfl, rfl, rfl, fun _ hh => hh, fun hh => hh⟩

lemma adoptConfiguration_lastApplied (e : LogEntry) : (n.adoptConfiguration e).state.lastApplied = n.state.lastApplied := by
  have ht : (n.takeConfiguration e).state.lastApplied = n.state.lastApplied := rfl
  rw [← ht]
  unfold adoptConfiguration
  dsimp only
  split
  · unfold stepDown
    split
    · rfl
    · simp [resetElectionDeadline]
  split
  · split
    · rfl
    split
    · rfl
    · simp
  · rfl

/-- The loop goes on only past the entry it was to apply. -/
lemma applyOne_next (e : LogEntry) (hg : (n.applyOne e).2 = true) :
    (n.applyOne e).1.state.lastApplied = n.state.lastApplied + 1 := by
  unfold applyOne at hg ⊢
  split at hg
  · simp at hg
  rename_i next
  have next : e.index = n.state.lastApplied + 1 := by simpa using next
  rw [if_neg (by simpa using next)]
  dsimp only at hg ⊢
  split at hg
  · simp at hg
  rename_i applied fsm ok
  rw [persist_state]
  have hi := FsmCaller.applyEntry_ok ok
  split
  · rw [adoptConfiguration_lastApplied]
    exact hi.trans next
  · exact hi.trans next

section Applying

variable {P Q : RaftNode → Prop} (rests : ∀ n, P n → Q n)
  (one : ∀ n ent, P n → ent ∈ n.mem.entries → n.state.lastApplied < n.state.commitIndex →
    Q (n.applyOne ent).1 ∧ ((n.applyOne ent).2 = true → P (n.applyOne ent).1))

include rests one

lemma applyBatch_rule (es : List LogEntry) (hn : P n) (hs : ∀ e ∈ es, e ∈ n.mem.entries)
    (due : n.state.lastApplied + es.length ≤ n.state.commitIndex) :
    Q (n.applyBatch es).1 ∧ ((n.applyBatch es).2 = true → P (n.applyBatch es).1) := by
  induction es generalizing n with
  | nil => exact ⟨rests n hn, fun _ => hn⟩
  | cons ent tl ih =>
    simp only [length_cons] at due
    have ha := one n ent hn (hs ent (by simp)) (by omega)
    unfold applyBatch
    split
    next m hr => exact ⟨by rw [hr] at ha; exact ha.1, nofun⟩
    next m hr =>
      have hp := applyOne_next n ent (by rw [hr])
      have ho := applyOne_ongoing n ent
      rw [hr] at ha hp ho
      exact ih m (ha.2 rfl) (fun e hm => ho.stored e (hs e (by simp [hm]))) (by rw [hp, ho.commitIndex]; omega)

/-- What applying one entry keeps, applying the committed ones keeps: `P` while the loop
goes on and `Q` where it ends. -/
lemma applyLoop_rule (k : Nat) (hn : P n) : Q (applyLoop k n) := by
  induction k generalizing n with
  | zero => exact rests n hn
  | succ k ih =>
    unfold applyLoop
    split
    · dsimp only
      split
      · split
        · exact rests n hn
        next ent hf =>
          have ha := one n ent hn (MemoryStore.of_entryAt hf).1 (by omega)
          split
          next m hr => exact (hr ▸ ha).1
          next m hr => exact ih m ((hr ▸ ha).2 rfl)
      split
      · exact rests n hn
      have hl := n.mem.entriesFrom_length_le (n.state.lastApplied + 1) (n.state.commitIndex - n.state.lastApplied)
      have hb := applyBatch_rule n rests one _ hn (fun e hm => mem_of_mem_drop (mem_of_mem_take hm))
        (le_trans (Nat.add_le_add_left hl _) (by omega))
      split
      next m hr => exact (hr ▸ hb).1
      next m hr => exact ih m ((hr ▸ hb).2 rfl)
    · exact rests n hn

end Applying

variable (n0 inp) in
lemma applyLoop_activity (k : Nat) {n : RaftNode} (may : ∀ index ≤ n.state.commitIndex, mayApply n0 inp index = true)
    (hs : n.role = .leader ∨ n.role = .follower) : Activity n0 inp n (applyLoop k n) [] ∧ Ongoing n (applyLoop k n) := by
  refine applyLoop_rule n (P := fun m => Activity n0 inp n m [] ∧ Ongoing n m) (fun _ hm => hm)
    (fun m e hm ht due => ?_) k ⟨.done n, .refl n⟩
  have ho := applyOne_ongoing m e
  suffices hone : Activity n0 inp m (m.applyOne e).1 [] from
    ⟨⟨hm.1.after hone, hm.2.trans ho⟩, fun _ => ⟨hm.1.after hone, hm.2.trans ho⟩⟩
  by_cases next : e.index = m.state.lastApplied + 1
  · exact applyOne_activity m e ht (by omega) (may _ (hm.2.commitIndex ▸ by omega)) (hm.2.settled hs)
  have hr : m.applyOne e = (m, false) := by simp [applyOne, next]
  rw [hr]
  exact .done m

/-- Save and apply, after the commit index moved. -/
lemma persist_applyCommitted_activity {n : RaftNode} (may : ∀ index ≤ n.state.commitIndex, mayApply n0 inp index = true)
    (he : n.role = .leader ∨ n.role = .follower) :
    Activity n0 inp n n.persist.applyCommitted [] ∧ Ongoing n n.persist.applyCommitted := by
  have hs := Ongoing.of_persisted (persist_persisted n)
  unfold applyCommitted
  split
  · exact ⟨persist_activity n, hs⟩
  have hl := applyLoop_activity n0 inp
    (n.persist.state.commitIndex - n.persist.state.lastApplied) (by rwa [hs.commitIndex])
    (hs.settled he)
  exact ⟨(persist_activity n).after hl.1, hs.trans hl.2⟩

end RaftNode

end Cnetmod.Raft
