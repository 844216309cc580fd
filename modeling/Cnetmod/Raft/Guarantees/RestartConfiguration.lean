import Cnetmod.Raft.Spec.NodeRuns
import Cnetmod.Raft.Spec.Runs

/-!
# The configuration after a restart

The constructor takes the configuration from the snapshot metadata if that names
voters, and from the static peer list otherwise. `last_applied` is saved, so
entries that were applied are not applied again: a configuration that came with
an entry is lost with the instance unless a snapshot has recorded it since.
`create_snapshot` records `conf_`, which on a leader may still be uncommitted.
-/
namespace Cnetmod.Raft

open Configuration RaftNode

/-- The configuration a new instance over the same store starts with. -/
def RaftNode.storedConf (n : RaftNode) : Configuration := (create n.cfg n.store none 0).conf

/-- In every state a new instance would start with the configuration the present
one has adopted from committed entries. -/
def NodeRun.ConfigurationSurvives (run : NodeRun) : Prop :=
  ∀ i machine clock, ((run.state i).restart machine clock).conf = (run.state i).history.committedConf

def RaftNode.initialConf (n : RaftNode) : Configuration :=
  Configuration.ofState n.cfg.initialConfiguration

/-- Adopting it makes no difference to a new instance, and no entry follows it. -/
def repeatsStored (n : RaftNode) (s : ConfigurationState) : Bool :=
  Configuration.ofState s = n.storedConf && !(Configuration.ofState s).joint

/-- Whether the entry is no configuration that this call may apply, or repeats the
stored one. -/
def appliesStored (n : RaftNode) (input : Input) (e : LogEntry) : Bool :=
  e.type ≠ .configuration || e.index ≤ n.state.lastApplied || !mayApply n input e.index ||
    repeatsStored n e.configuration

/-- The call applies no configuration that differs from the stored one, records no
other in a snapshot, and installs no snapshot that hides it. -/
def keepsConfiguration (n : RaftNode) (input : Input) : Bool :=
  n.mem.entries.all (appliesStored n input) &&
    match input with
    | .receive _ (.appendEntries req) => req.entries.all (appliesStored n input)
    | .call (.changeConfiguration change) =>
      match change.apply n.conf with
      | .ok next => !mayApply n input 0 || repeatsStored n next.state
      | .error _ => true
    | .receive _ (.installSnapshot req) =>
      !heedsSnapshot n req || !req.offered.valid || !req.offered.configuration.voters.isEmpty || n.storedConf = n.initialConf
    | _ => !savesSnapshot n input ||
      (if n.conf.voters.isEmpty then n.initialConf else n.conf) = n.storedConf

section Stored

variable {n m : RaftNode}

lemma storedConf_eq (n : RaftNode) : n.storedConf = if n.mem.snapshot.valid && !n.mem.snapshot.configuration.voters.isEmpty then
      Configuration.ofState n.mem.snapshot.configuration else n.initialConf := rfl

lemma storedConf_of_same (cfg : m.cfg = n.cfg) (hs : m.mem.snapshot = n.mem.snapshot) : m.storedConf = n.storedConf := by
  rw [storedConf_eq, storedConf_eq, hs, initialConf, initialConf, cfg]

end Stored

/-- `configuration{conf.state()}` is `conf` again. -/
lemma Configuration.ofState_state (conf : Configuration) : ofState conf.state = conf := by
  have ha : conf.state.learners.filter
      (fun id => !(id ∈ conf.state.voters || id ∈ conf.state.oldVoters)) = conf.state.learners :=
    List.filter_eq_self.mpr fun id hm => by simpa using conf.learnersApart id hm
  have hs : (ofState conf.state).state = conf.state := by
    simp only [ofState, conf.votersNormal.normalized_eq, conf.oldVotersNormal.normalized_eq,
      conf.learnersNormal.normalized_eq, ha]
  cases conf
  cases hb : ofState _
  simp_all

section Step

variable {n0 n m : RaftNode} {inp : Input}

/-- A configuration entry is an old one, one of the leader's or the one the call
is about. -/
def KnownConfiguration (start : RaftNode) (input : Input) (e : LogEntry) : Prop :=
  e ∈ start.mem.entries ∨
    (∃ src req, input = .receive src (.appendEntries req) ∧ e ∈ req.entries) ∨
    ∃ change next, input = .call (.changeConfiguration change) ∧
      change.apply start.conf = .ok next ∧ e.configuration = next.state

/-- What holds between the moves of a call that keeps the configuration. -/
structure ConfKept (start : RaftNode) (input : Input) (n : RaftNode) : Prop where
  cfg : n.cfg = start.cfg
  stored : n.storedConf = n.history.committedConf
  steady : n.history.committedConf = start.storedConf ∨
    ∃ src req, input = .receive src (.installSnapshot req) ∧ req.offered.configuration.voters.isEmpty = false
  listed : ∀ e ∈ n.mem.entries, e.type = .configuration → KnownConfiguration start input e
  applied : start.state.lastApplied ≤ n.state.lastApplied

lemma ConfKept.initially (hs : n0.storedConf = n0.history.committedConf) : ConfKept n0 inp n0 :=
  ⟨rfl, hs, .inl hs.symm, fun _ hm _ => .inl hm, le_rfl⟩

lemma ConfKept.of_same (hk : ConfKept n0 inp n) (cfg : m.cfg = n.cfg)
    (hs : m.mem.snapshot = n.mem.snapshot)
    (hc : m.history.committedConf = n.history.committedConf)
    (he : ∀ e ∈ m.mem.entries, e.type = .configuration → e ∈ n.mem.entries ∨ KnownConfiguration n0 inp e)
    (ha : n.state.lastApplied ≤ m.state.lastApplied) : ConfKept n0 inp m where
  cfg := cfg.trans hk.cfg
  stored := by rw [storedConf_of_same cfg hs, hk.stored, hc]
  steady := by rw [hc]; exact hk.steady
  listed e hm hki := (he e hm hki).elim (fun old => hk.listed e old hki) id
  applied := hk.applied.trans ha

/-- The log is as it was. -/
lemma ConfKept.of_same_log (hk : ConfKept n0 inp n) (cfg : m.cfg = n.cfg)
    (hs : m.mem.snapshot = n.mem.snapshot) (he : m.mem.entries = n.mem.entries)
    (hc : m.history.committedConf = n.history.committedConf)
    (ha : n.state.lastApplied ≤ m.state.lastApplied) : ConfKept n0 inp m :=
  hk.of_same cfg hs hc (fun _ hm _ => .inl (he ▸ hm)) ha

/-- Whatever configuration the call applies repeats the stored one. -/
lemma ConfKept.repeats (hg : keepsConfiguration n0 inp = true) (hb : ConfKept n0 inp n) (hs : entry ∈ n.mem.entries)
    (next : entry.index = n.state.lastApplied + 1) (may : mayApply n0 inp entry.index = true) (hk : entry.type = .configuration) :
    repeatsStored n0 entry.configuration = true := by
  have hf : ¬ entry.index ≤ n0.state.lastApplied := by
    have := hb.applied
    omega
  have ha : appliesStored n0 inp entry = true → repeatsStored n0 entry.configuration = true := by
    simp [appliesStored, hk, hf, may]
  simp only [keepsConfiguration, Bool.and_eq_true] at hg
  rcases hb.listed entry hs hk with old | ⟨src, req, rfl, he⟩ |
    ⟨change, conf, rfl, hc, hsa⟩
  · exact ha (List.all_eq_true.mp hg.1 entry old)
  · exact ha (List.all_eq_true.mp hg.2 entry he)
  · have may : mayApply n0 (.call (.changeConfiguration change)) 0 = true := may
    simpa [hc, may, hsa] using hg.2

lemma ConfKept.adopt (hg : keepsConfiguration n0 inp = true) (hk : ConfKept n0 inp n) (ht : entry ∈ n.mem.entries)
    (next : entry.index = n.state.lastApplied + 1)
    (may : mayApply n0 inp entry.index = true) (ha : entry.type = .configuration) : ConfKept n0 inp { n with
        state.lastApplied := entry.index
        conf := ofState entry.configuration
        history.committedConf := ofState entry.configuration } := by
  have hr := hk.repeats hg ht next may ha
  simp only [repeatsStored, Bool.and_eq_true, decide_eq_true_eq] at hr
  have hs : n.history.committedConf = n0.storedConf := by
    rcases hk.steady with hs | ⟨src, req, rfl, _⟩
    · exact hs
    · simp [mayApply, countsUnder, standing] at may
  refine ⟨hk.cfg, ?_, .inl hr.1, hk.listed, hk.applied.trans (by simp [next])⟩
  exact (hk.stored.trans hs).trans hr.1.symm

lemma ConfKept.saveMetadata (guarded : keepsConfiguration n0 inp = true)
    (kept : ConfKept n0 inp n) (asked : inp = .call (.createSnapshot uri) ∨ ∃ p, inp = .call (.maybeCreateSnapshot p))
    (saves : savesSnapshot n0 inp = true)
    (made : metadata = { lastIncludedIndex := n.state.commitIndex
                         lastIncludedTerm := n.mem.termAt n.state.commitIndex
                         uri := uri, configuration := n.conf.state })
    (some : n.state.commitIndex ≠ 0) (unchanged : n.conf = n0.conf) :
    ConfKept n0 inp
      { n with
        store := { mem := n.mem.saveSnapshotMetadata metadata
                   faults := n.store.faults.drop 1 } } := by
  have recorded : (if n0.conf.voters.isEmpty then n0.initialConf else n0.conf) = n0.storedConf := by
    simp only [keepsConfiguration, Bool.and_eq_true] at guarded
    rcases asked with rfl | ⟨p, rfl⟩ <;> simpa [saves] using guarded.2
  have steady : n.history.committedConf = n0.storedConf := by
    rcases kept.steady with steady | ⟨src, req, rfl, _⟩
    · exact steady
    · simp at asked
  refine ⟨kept.cfg, ?_, .inl steady, kept.listed, kept.applied⟩
  change (if metadata.valid && !metadata.configuration.voters.isEmpty then
    ofState metadata.configuration else n.initialConf) = n.history.committedConf
  have initial : n.initialConf = n0.initialConf := by rw [initialConf, initialConf, kept.cfg]
  rw [steady, ← recorded, ← unchanged, ← initial]
  subst made
  rw [ofState_state]
  cases empty : n.conf.voters.isEmpty with
  | true => simp [show n.conf.state.voters.isEmpty = true from empty]
  | false => simp [show n.conf.state.voters.isEmpty = false from empty, SnapshotMetadata.valid, some]

lemma ConfKept.restore (hg : keepsConfiguration n0 inp = true) (hk : ConfKept n0 inp n)
    (hr : inp = .receive src (.installSnapshot req)) (ho : metadata = req.offered) (hb : metadata.valid = true)
    (hh : heedsSnapshot n0 req = true) : ConfKept n0 inp (RaftNode.adoptSnapshot { n with
          store := { mem := n.mem.resetToSnapshot metadata, faults := n.store.faults.drop 1 } }
        metadata) := by
  subst hr ho
  have hc : ∀ e ∈ (n.mem.resetToSnapshot req.offered).entries, e.type = .configuration →
      KnownConfiguration n0 (.receive src (.installSnapshot req)) e := by
    simp [MemoryStore.resetToSnapshot]
  cases hn : req.offered.configuration.voters.isEmpty with
  | true =>
    have ht : n0.storedConf = n0.initialConf := by
      simp only [keepsConfiguration, Bool.and_eq_true] at hg
      simpa [hh, hb, hn] using hg.2
    have hs : n.history.committedConf = n0.storedConf := by
      rcases hk.steady with hs | ⟨src', req', ha, hv⟩
      · exact hs
      simp only [Input.receive.injEq, Message.installSnapshot.injEq] at ha
      rw [← ha.2, hn] at hv
      simp at hv
    refine ⟨hk.cfg, ?_, .inl ?_, hc, hk.applied.trans (le_max_left _ _)⟩
    · rw [storedConf_eq]
      simp [adoptSnapshot, mem, MemoryStore.resetToSnapshot, hn, hs, ht, initialConf, hk.cfg]
    · simpa [adoptSnapshot, hn] using hs
  | false =>
    refine ⟨hk.cfg, ?_, .inr ⟨src, req, rfl, hn⟩, hc, hk.applied.trans (le_max_left _ _)⟩
    rw [storedConf_eq]
    simp [adoptSnapshot, mem, MemoryStore.resetToSnapshot, hn, hb]

lemma ConfKept.move (hg : keepsConfiguration n0 inp = true)
    (hmo : Move n0 inp n m out) (hk : ConfKept n0 inp n) : ConfKept n0 inp m := by
  cases hmo with
  | quiet hf =>
    refine hk.of_same_log (core_cfg hf) ?_ ?_ (congrArg Core.committedConf hf) ?_
    · rw [core_mem hf]
    · rw [core_mem hf]
    · rw [core_state hf]
  | persist => exact hk.of_same_log (by simp) (by simp) (by simp) (by simp) (by simp)
  | stop error => exact hk.of_same_log (by simp) (by simp [mem]) (by simp [mem]) (by simp) (by simp)
  | append ent hl hb ht he =>
    have hw := n.mem.appendOne_written (List.mem_singleton_self ent)
    refine hk.of_same rfl hw.snapshot rfl (fun e hm hc => ?_) (le_rfl)
    rcases hw.entries e hm with old | new
    · exact .inl old
    rw [List.mem_singleton] at new
    subst new
    exact .inr (.inr (.inr (he hc)))
  | accept src req app ps hr _ _ _ _ _ ran | torn src req thrown ps hr _ ran =>
    have hw := LogManager.appendFromLeader_written ran
    refine hk.of_same rfl hw.snapshot rfl (fun e hm _ => ?_) (le_rfl)
    exact (hw.entries e hm).imp_right fun hn => .inr (.inl ⟨src, req, hr, hn⟩)
  | applied ent hs next => exact hk.of_same_log rfl rfl rfl rfl (by simp [next])
  | adopt ent hs next _ may he => exact hk.adopt hg hs next may he
  | adoptLeaving ent leave hs next _ may he hj =>
    have hq := hk.repeats hg hs next may he
    simp [repeatsStored, hj] at hq
  | restore src req md hr ho hv hh => exact hk.restore hg hr ho hv hh
  | saveMetadata uri md ha hx hp some hu => exact hk.saveMetadata hg ha hx hp some hu
  | compact => exact hk.of_same rfl rfl rfl (fun e hm _ => .inl (List.mem_of_mem_drop hm)) (le_rfl)
  | _ => exact hk.of_same_log rfl rfl rfl rfl (le_rfl)

end Step

/-- Where no step applies or records a configuration other than the stored one,
nor hides it behind a snapshot without voters, restarts keep the configuration. -/
theorem configuration_survives_restart (run : NodeRun) (guarded : run.Meets keepsConfiguration) :
    run.ConfigurationSurvives := by
  have hs : ∀ i, (run.state i).storedConf = (run.state i).history.committedConf := by
    intro i
    refine NodeRun.invariant_from (i := 0) (fun n => n.storedConf = n.history.committedConf) rfl ?_ (Nat.zero_le i)
    intro k ck inp _ hg hh
    rcases inp.restart_or_running with ⟨mc, rfl⟩ | hr
    · rfl
    · exact ((run.state k).react_activity ck hr |>.invariant (ConfKept (run.state k) inp)
        (ConfKept.move (guarded k ck inp hg)) (.initially hh)).stored
  intro i mc ck
  exact hs i

/-- "a" alone leads itself and takes "b" in as a second voter. -/
def growingRun (rest : List Input) : NodeRun :=
  scriptRun { id := "a" } [] ([.call .beginElection, .call (.changeConfiguration (.enterJoint ["a", "b"]))] ++ rest)

/-- As long as "b" has not acknowledged the entry, the change is not committed. -/
theorem configuration_survives_restart_pending :
    (((growingRun []).state 2).conf.voters = ["a", "b"] ∧ ((growingRun []).state 2).history.committedConf.voters = ["a"]) ∧
    (growingRun []).ConfigurationSurvives :=
  ⟨by decide +kernel, configuration_survives_restart _ (scriptRun_meets (by decide +kernel))⟩

/-- "b" acknowledges, "a" applies the joint configuration, and a new instance over
the same store is a single voter again. -/
theorem applied_not_surviving :
    ¬ (growingRun [.receive "b" (.appendResponse { term := 1, success := true, matchIndex := 2 })]).ConfigurationSurvives := by
  intro hs
  have ha := congrArg Configuration.voters (hs 3 none 0)
  exact absurd ha (by decide +kernel)

end Cnetmod.Raft
