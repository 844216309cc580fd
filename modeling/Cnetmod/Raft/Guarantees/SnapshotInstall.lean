import Cnetmod.Raft.Spec.NodeRuns
import Cnetmod.Raft.Spec.Runs

/-!
# Installing a snapshot

`handle_install_snapshot` compares the offered snapshot with neither the commit
index nor the log. It loads the state machine, drops the whole log and takes the
maxima of the indexes, so a delayed or repeated request can throw away committed
entries and leave the commit index past the end of the log. What an accepted
request leaves behind is a function of the offer and of two indexes, which
settles for every request whether it rolls the node back.
-/
namespace Cnetmod.Raft

open FsmCaller RaftNode

/-- The callbacks that change what the state machine holds. -/
def MachineCall.changes : MachineCall → Bool
  | .onApply _ => true
  | .loadSnapshot _ _ => true
  | .saveSnapshot _ _ => false
  | .onLeaderStart _ => false
  | .onLeaderStop _ => false

/-- What the state machine has been made of, if there is one. -/
def FsmCaller.contents (f : FsmCaller) : Option (List MachineCall) :=
  f.machine.map fun m => m.calls.filter (·.changes)

/-- What a follower must not lose to an accepted snapshot: entries past a point the
log agrees on that it acknowledged or committed, the order of its indexes and, if
the snapshot is not news, anything at all. -/
structure NoRollback (n m : RaftNode) (snapshot : SnapshotMetadata) : Prop where
  kept : n.mem.termAt snapshot.lastIncludedIndex = snapshot.lastIncludedTerm →
    ∀ e ∈ n.mem.entries, snapshot.lastIncludedIndex < e.index →
      e ∈ n.history.acked ∨ e.index ≤ n.state.commitIndex → e ∈ m.mem.entries
  ordered : m.state.lastApplied ≤ m.state.commitIndex ∧ m.state.commitIndex ≤ m.lastLogIndex
  stale : snapshot.lastIncludedIndex ≤ n.state.commitIndex →
    m.mem.entries = n.mem.entries ∧ m.mem.snapshot = n.mem.snapshot ∧ m.fsm.contents = n.fsm.contents

/-- Step `i` of the run accepts the request. -/
def NodeRun.Installs (run : NodeRun) (i : Nat) (req : InstallSnapshotRequest) : Prop :=
  ∃ clock src, run.inputs i = some (clock, .receive src (.installSnapshot req)) ∧
    ({ run.state i with clock := clock }.handleInstallSnapshot req).2.success = true

def NodeRun.NeverRolledBack (run : NodeRun) : Prop :=
  ∀ i req, run.Installs i req → NoRollback (run.state i) (run.state (i + 1)) req.offered

/-- The state machine, if there is one, loads the next snapshot. -/
def FsmCaller.loads (f : FsmCaller) : Bool :=
  match f.machine with
  | some m => (m.snapshotFaults.headD none).isNone
  | none => true

/-- Following the sender saves the hard state only where it changes role or term. -/
def followSaves (n : RaftNode) (term : Nat) : Nat :=
  if term > n.state.currentTerm ∨ n.role ≠ .follower then 1 else 0

/-- The node takes the snapshot: it heeds the sender, the state machine loads it and
the store lets itself be reset. -/
def takesSnapshot (n : RaftNode) (req : InstallSnapshotRequest) : Bool :=
  heedsSnapshot n req && req.offered.valid && n.fsm.loads && ((n.store.faults.drop (followSaves n req.term)).headD none).isNone

/-- The snapshot is ahead of the commit index and of everything applied, and the log
has no acknowledged entry past it; or it is the one the node already stands on,
with nothing on top and no state machine to load it into. -/
def snapshotAhead (n : RaftNode) (snapshot : SnapshotMetadata) : Bool :=
  n.state.lastApplied ≤ snapshot.lastIncludedIndex &&
    if n.state.commitIndex < snapshot.lastIncludedIndex then
      n.mem.termAt snapshot.lastIncludedIndex ≠ snapshot.lastIncludedTerm ||
        n.mem.entries.all fun e => e.index ≤ snapshot.lastIncludedIndex || e ∉ n.history.acked
    else n.state.commitIndex = snapshot.lastIncludedIndex && n.mem.entries = [] &&
      n.mem.snapshot = snapshot && n.fsm.machine.isNone

/-- A snapshot the node takes is ahead of the state it arrives in. -/
def takesAhead (n : RaftNode) : Input → Bool
  | .receive _ (.installSnapshot req) => !takesSnapshot n req || snapshotAhead n req.offered
  | _ => true

lemma onLeaderStop_contents (f : FsmCaller) (t : Nat) : (f.onLeaderStop t).contents = f.contents := by
  unfold onLeaderStop notify contents
  cases f.machine with
  | none => rfl
  | some m => simp [MachineCall.changes]

lemma onLeaderStop_loads (f : FsmCaller) (t : Nat) : (f.onLeaderStop t).loads = f.loads := by
  unfold onLeaderStop notify loads
  cases f.machine with
  | none => rfl
  | some m => rfl

section Machine

variable {part : FsmCaller → α} (mute : ∀ f term, part (f.onLeaderStop term) = part f)

include mute

/-- Stepping down may tell the state machine so. -/
lemma leaderStop_part (n : RaftNode) :
    part (if n.role = .leader then n.fsm.onLeaderStop n.state.currentTerm else n.fsm) = part n.fsm := by
  split
  · exact mute _ _
  · rfl

lemma stop_part (n : RaftNode) (e : RaftError) : part (n.stop e).fsm = part n.fsm := by
  unfold stop
  split
  · rfl
  · exact leaderStop_part mute n

lemma persist_part (n : RaftNode) : part n.persist.fsm = part n.fsm := by
  rcases n.persist_eq with ⟨_, done⟩ | ⟨_, done⟩ | ⟨_, e, done⟩
  · rw [done]
  · rw [done]
  · rw [done, stop_part mute]

lemma follow_part (n : RaftNode) (t : Nat) (ld : NodeId) : part (n.follow t ld).fsm = part n.fsm := by
  unfold follow
  dsimp only [resetElectionDeadline]
  split
  · unfold stepDown
    split
    · rfl
    · rw [persist_part mute]
      exact leaderStop_part mute n
  · rfl

end Machine

lemma stepDown_applied (n : RaftNode) (t : Nat) : (n.stepDown t).state.lastApplied = n.state.lastApplied := by
  unfold stepDown
  split
  · rfl
  rw [persist_state]
  split <;> rfl

lemma follow_lastApplied (n : RaftNode) (t : Nat) (ld : NodeId) : (n.follow t ld).state.lastApplied = n.state.lastApplied := by
  unfold follow
  split
  · exact stepDown_applied n t
  · rfl

lemma loadSnapshot_contents {f g : FsmCaller} (ran : f.loadSnapshot md uri = (r, g)) :
    g.contents = f.contents.map (· ++ [.loadSnapshot md uri]) := by
  unfold loadSnapshot snapshotCall at ran
  unfold contents
  cases machine : f.machine with
  | none =>
    simp only [machine] at ran
    cases ran
    simp
  | some m =>
    simp only [machine] at ran
    have shape : g.machine = some { m with calls := m.calls ++ [.loadSnapshot md uri]
                                           snapshotFaults := m.snapshotFaults.drop 1 } := by
      split at ran <;> cases ran <;> rfl
    simp [shape, MachineCall.changes]

/-- What an accepted request leaves behind. -/
structure Installed (n m : RaftNode) (snapshot : SnapshotMetadata) (uri : String) : Prop where
  entries : m.mem.entries = []
  metadata : m.mem.snapshot = snapshot
  commitIndex : m.state.commitIndex = max n.state.commitIndex snapshot.lastIncludedIndex
  lastApplied : m.state.lastApplied = max n.state.lastApplied snapshot.lastIncludedIndex
  contents : m.fsm.contents = n.fsm.contents.map (· ++ [.loadSnapshot snapshot uri])

variable {req : InstallSnapshotRequest}

lemma handleInstallSnapshot_installed (ha : (n.handleInstallSnapshot req).2.success = true) :
    Installed n (n.handleInstallSnapshot req).1 req.offered req.uri := by
  unfold handleInstallSnapshot at ha ⊢
  split at ha
  · simp at ha
  rename_i hru
  rw [if_neg hru]
  split at ha
  · simp at ha
  rename_i hra
  rw [if_neg hra]
  split at ha
  · simp at ha
  rename_i hk
  rw [if_neg hk]
  have log := follow_sameLog n req.term req.leaderId
  have hp := follow_lastApplied n req.term req.leaderId
  have ht := follow_part onLeaderStop_contents n req.term req.leaderId
  generalize n.follow req.term req.leaderId = k at ha log hp ht ⊢
  generalize ho : (if req.uri ≠ "" then { req.metadata with uri := req.uri }
    else req.metadata) = snap at ha ⊢
  rw [show req.offered = snap from ho]
  cases hl : k.fsm.loadSnapshot snap req.uri with
  | mk r fsm =>
    simp only [hl] at ha ⊢
    cases r with
    | error e => simp at ha
    | ok _ =>
      rcases restoreSnapshot_eq k.store snap with
        ⟨r, hre, ran⟩ | ⟨thrown, ran⟩ | ⟨_, r, hr, ran⟩
      · simp [ran, hre] at ha
      · simp [ran] at ha
      simp only [ran, hr, Bool.not_true, Bool.false_eq_true, if_false]
      refine ⟨?_, ?_, ?_, ?_, ?_⟩
      · rw [persist_entries]
        rfl
      · rw [persist_snapshot]
        rfl
      · rw [persist_state, ← log.commitIndex]
        rfl
      · rw [persist_state, ← hp]
        rfl
      · rw [persist_part onLeaderStop_contents, ← ht]
        exact loadSnapshot_contents hl

/-- A save takes one entry of the fault script, also when it throws. -/
lemma persist_faults {n : RaftNode} (hr : n.stopped = false) : n.persist.store.faults = n.store.faults.drop 1 := by
  rcases n.persist_eq with ⟨hs, _⟩ | ⟨_, done⟩ | ⟨_, e, done⟩
  · simp [hr] at hs
  · rw [done]
  · simp [done]

lemma follow_faults {n : RaftNode} (hr : n.stopped = false) (t : Nat) (ld : NodeId) :
    (n.follow t ld).store.faults = n.store.faults.drop (followSaves n t) := by
  unfold follow followSaves
  split
  · unfold stepDown
    rw [if_neg (by simp [hr])]
    exact persist_faults hr
  · rfl

lemma loadSnapshot_toBool (f : FsmCaller) (md : SnapshotMetadata) (uri : String) :
    (f.loadSnapshot md uri).1.toBool = f.loads := by
  unfold loadSnapshot snapshotCall loads
  cases f.machine with
  | none => rfl
  | some m =>
    match hf : m.snapshotFaults with
    | [] => simp [hf, Except.toBool]
    | none :: tl => simp [hf, Except.toBool]
    | some (.thrown thrown) :: tl => simp [hf, Except.toBool]
    | some (.returned e) :: tl => simp [hf, Except.toBool]

lemma write_toBool (st : RaftStorage) (change : MemoryStore → MemoryStore) :
    (st.write change).1.toBool = (st.faults.headD none).isNone := by
  unfold RaftStorage.write
  match hf : st.faults with
  | [] => rfl
  | none :: tl => rfl
  | some thrown :: tl => rfl

/-- The request is accepted where `takesSnapshot` says so beforehand. -/
lemma handleInstallSnapshot_success (n : RaftNode) (req : InstallSnapshotRequest) :
    (n.handleInstallSnapshot req).2.success = takesSnapshot n req := by
  unfold handleInstallSnapshot takesSnapshot
  dsimp only
  split
  · rename_i hs
    simp [heedsSnapshot, hs]
  rename_i hr
  have hr : n.stopped = false := by simpa using hr
  split
  · rename_i hol
    simp [heedsSnapshot, Nat.not_le_of_lt hol]
  rename_i hre
  split
  · rename_i hu
    simp only [Bool.and_eq_true, Bool.not_eq_true'] at hu
    simp [heedsSnapshot, hu]
  rename_i hk
  have hh : heedsSnapshot n req = true := by
    simp only [heedsSnapshot, hr, Nat.le_of_not_lt hre, Bool.not_false, decide_true, Bool.true_and]
    simpa [or_iff_not_imp_left] using hk
  rw [hh, ← follow_part onLeaderStop_loads n req.term req.leaderId, ← follow_faults hr req.term req.leaderId]
  generalize n.follow req.term req.leaderId = k
  generalize ho : (if req.uri ≠ "" then { req.metadata with uri := req.uri }
    else req.metadata) = snap
  rw [show req.offered = snap from ho, ← loadSnapshot_toBool k.fsm snap req.uri,
    ← write_toBool k.store (·.resetToSnapshot snap)]
  cases k.fsm.loadSnapshot snap req.uri with
  | mk res fsm =>
    cases res with
    | error e => simp [Except.toBool]
    | ok _ =>
      unfold LogManager.restoreSnapshot RaftStorage.resetToSnapshot
      cases hv : snap.valid with
      | false => simp
      | true =>
        cases k.store.write (·.resetToSnapshot snap) with
        | mk res ps =>
          cases res with
          | error thrown | ok _ => simp [Except.toBool]

section Compare

variable {n m : RaftNode} {snap : SnapshotMetadata} {uri : String} (hi : Installed n m snap uri)

include hi

lemma Installed.lastLogIndex : m.lastLogIndex = snap.lastIncludedIndex := by
  simp [RaftNode.lastLogIndex, MemoryStore.lastLogIndex, hi.entries, hi.metadata]

/-- Loading changes any state machine there is. -/
lemma Installed.contents_iff : m.fsm.contents = n.fsm.contents ↔ n.fsm.machine = none := by
  rw [hi.contents]
  unfold FsmCaller.contents
  cases n.fsm.machine with
  | none => simp
  | some mc => simp

lemma Installed.ahead_of_noRollback (hf : NoRollback n m snap) : snapshotAhead n snap = true := by
  obtain ⟨hb, hw⟩ := hf.ordered
  rw [hi.commitIndex, hi.lastLogIndex] at hw
  rw [hi.commitIndex, hi.lastApplied] at hb
  have hp : n.state.lastApplied ≤ snap.lastIncludedIndex := by omega
  simp only [snapshotAhead, hp, decide_true, Bool.true_and]
  split
  · by_cases ha : n.mem.termAt snap.lastIncludedIndex = snap.lastIncludedTerm
    · simp only [ha, ne_eq, not_true_eq_false, decide_false, Bool.false_or, List.all_eq_true,
        Bool.or_eq_true, decide_eq_true_eq]
      intro e hg
      by_contra hl
      obtain ⟨hj, hk⟩ : snap.lastIncludedIndex < e.index ∧ e ∈ n.history.acked := by simpa [not_or] using hl
      have hs := hf.kept ha e hg hj (.inl hk)
      rw [hi.entries] at hs
      simp at hs
    · simp [ha]
  · obtain ⟨he, hm, hc⟩ := hf.stale (by omega)
    rw [hi.entries] at he
    rw [hi.metadata] at hm
    simp [← he, ← hm, hi.contents_iff.mp hc]
    omega

lemma Installed.noRollback_of_ahead (ha : snapshotAhead n snap = true) : NoRollback n m snap := by
  simp only [snapshotAhead, Bool.and_eq_true, decide_eq_true_eq] at ha
  obtain ⟨hp, ha⟩ := ha
  split at ha
  · refine ⟨fun hg e hm hb hf => ?_, ?_, fun hs => by omega⟩
    · simp only [hg, ne_eq, not_true_eq_false, decide_false, Bool.false_or, List.all_eq_true,
        Bool.or_eq_true, decide_eq_true_eq] at ha
      rcases ha e hm with hco | hu
      · omega
      rcases hf with hak | hc
      · exact absurd hak hu
      · omega
    · rw [hi.lastLogIndex, hi.commitIndex, hi.lastApplied]
      omega
  · simp only [Bool.and_eq_true, decide_eq_true_eq, Option.isNone_iff_eq_none] at ha
    obtain ⟨⟨⟨hj, he⟩, hme⟩, hma⟩ := ha
    refine ⟨fun _ e hm => by simp [he] at hm, ?_, fun _ => ⟨?_, ?_, ?_⟩⟩
    · rw [hi.lastLogIndex, hi.commitIndex, hi.lastApplied]
      omega
    · rw [hi.entries, he]
    · rw [hi.metadata, hme]
    · exact hi.contents_iff.mpr hma

end Compare

lemma NodeRun.Installs.installed {run : NodeRun} (hi : run.Installs i req) :
    Installed (run.state i) (run.state (i + 1)) req.offered req.uri := by
  obtain ⟨ck, src, hg, ha⟩ := hi
  rw [NodeRun.state_succ hg]
  obtain ⟨he, hm, hc, hl, ho⟩ := handleInstallSnapshot_installed ha
  exact ⟨he, hm, hc, hl, ho⟩

/-- The runs in which no accepted snapshot rolls the node back are those in which
every snapshot taken is ahead of the state it arrives in. -/
theorem never_rolled_back_iff (run : NodeRun) : run.NeverRolledBack ↔ run.Meets takesAhead := by
  constructor
  · intro hs i ck inp hg
    unfold takesAhead
    split
    · rename_i src req
      cases ht : takesSnapshot (run.state i) req with
      | false => rfl
      | true =>
        have hi : run.Installs i req :=
          ⟨ck, src, hg, (handleInstallSnapshot_success _ req).trans ht⟩
        exact hi.installed.ahead_of_noRollback (hs i req hi)
    · rfl
  · intro hh i req hi
    obtain ⟨ck, src, hg, ha⟩ := hi
    have ht : takesSnapshot (run.state i) req = true :=
      (handleInstallSnapshot_success { run.state i with clock := ck } req).symm.trans ha
    have hu := hh i ck _ hg
    rw [takesAhead, ht, Bool.not_true] at hu
    exact NodeRun.Installs.installed ⟨ck, src, hg, ha⟩ |>.noRollback_of_ahead hu

def offeredRequest (last : Nat) : InstallSnapshotRequest where
  term := 1
  leaderId := "a"
  metadata := { lastIncludedIndex := last, lastIncludedTerm := 1
                configuration := { voters := ["a", "b", "c"] } }

/-- "b" stores two entries of leader "a", both committed, and is then offered a
snapshot up to `last`. -/
def offeredRun (last : Nat) : NodeRun :=
  scriptRun (trioConfig {} "b") []
    [.receive "a" (.appendEntries
      { term := 1, leaderId := "a", leaderCommit := 2
        entries := [{ index := 1, term := 1, type := .noOp }, { index := 2, term := 1 }] }),
     .receive "a" (.installSnapshot (offeredRequest last))]

theorem never_rolled_back_newer : (offeredRun 3).Installs 1 (offeredRequest 3) ∧ (offeredRun 3).NeverRolledBack :=
  ⟨⟨0, "a", rfl, by decide +kernel⟩, (never_rolled_back_iff _).mpr (scriptRun_meets (by decide +kernel))⟩

/-- A snapshot up to the first entry arrives late. It removes the second, which was
committed and acknowledged, and the commit index is left past the end of the log. -/
theorem delayed_rolls_back : ¬ (offeredRun 1).NeverRolledBack := by
  intro hs
  have hk := hs 1 (offeredRequest 1) ⟨0, "a", rfl, by decide +kernel⟩
  exact absurd hk.ordered.2 (by decide +kernel)

end Cnetmod.Raft
