import Cnetmod.Raft.Guarantees.SimulationRuns

/-!
# Safety of a cluster of fixed membership

Election safety and log matching hold in every run. Leader completeness needs
`replicationGuard` on every step and state machine safety `commitGuard` as well:
each is followed by a run that breaks it without.
-/
namespace Cnetmod.Raft

open Consensus

/-- Nothing is asked of the steps. -/
def Guards.unguarded : Guards := ⟨False, False, False.elim⟩

def Guards.replicated : Guards := ⟨True, False, False.elim⟩

def Guards.full : Guards := ⟨True, True, fun _ => trivial⟩

section Facts

variable {conf : Configuration} {members : Finset NodeId} {c c' : Cluster} {a b : NodeId}

lemma Simulated.node (all : Simulated g conf members c h) (hm : a ∈ members) : NodeSim g conf h a (c.nodes a) :=
  all.sim.nodes a (all.sameMembers ▸ hm)

lemma NodeSim.sound (inv : LogInv conf.quorums LogEntry.term h) (hn : NodeSim g conf h a n) :
    SoundLog LogEntry.term h n.state.currentTerm n.mem.entries := by
  have := inv.logs a
  rwa [hn.term, hn.log] at this

end Facts

/-- A run of nodes "a", "b" and "c" that never changes its membership. -/
def trio (options : RaftOptions) (acts : List Action) (fixed : ∀ act ∈ acts, act.fixed = true) : FixedRun where
  toClusterRun := trioRun options acts
  conf := Configuration.ofState { voters := ["a", "b", "c"] }
  common := by
    -- the options play no part
    change ∀ id ∈ ({"a", "b", "c"} : Finset NodeId), Configuration.ofState (trioConfig {} id).initialConfiguration = _
    decide +kernel
  fixed := by
    intro i
    change (acts.getD i .idle).fixed = true
    rw [List.getD_eq_getElem?_getD]
    cases found : acts[i]? with
    | none => rfl
    | some act => exact fixed act (List.mem_of_getElem? found)

lemma trio_meets {hf : ∀ act ∈ acts, act.fixed = true} {guard : RaftNode → Input → Bool}
    (hc : ∀ i < acts.length, ((trio opts acts hf).state i).meets guard (acts.getD i .idle) = true) :
    (trio opts acts hf).Meets guard :=
  fun i => trioRun_every (fun _ => rfl) hc i

/-- "b" is elected and commits a command with "c", which then takes over. -/
def steadyActs : List Action :=
  [.call "b" 0 .beginElection, .deliver 0 "c" 0, .deliver 1 "b" 0,
   .call "b" 0 (.appendCommand "x"),
   .call "b" 0 (.makeAppendEntries "c"), .deliver 2 "c" 0, .deliver 3 "b" 0,
   .call "b" 0 (.makeAppendEntries "c"), .deliver 4 "c" 0,
   .call "c" 0 .beginElection, .deliver 6 "a" 0, .deliver 7 "c" 0]

def steady : FixedRun := trio {} steadyActs (by decide)

/-- Two nodes that are ever leaders in the same term are the same node. -/
theorem election_safety (run : FixedRun) {i j : Nat} {a b : NodeId} (memberA : a ∈ run.members)
    (memberB : b ∈ run.members) (leadsA : (run.node i a).role = .leader)
    (leadsB : (run.node j b).role = .leader)
    (sameTerm : (run.node i a).state.currentTerm = (run.node j b).state.currentTerm) : a = b := by
  obtain ⟨hs, ha, hr⟩ := run.exists_histories .unguarded False.elim False.elim
  have hl := ((ha i).node memberA).leader leadsA
  have he := ((ha j).node memberB).leader leadsB
  have hb := (hr (Nat.le_max_left i j)).lead hl.1
  have ho := (hr (Nat.le_max_right i j)).lead he.1
  change (hs _).lead (run.node i a).state.currentTerm = _ at hb
  rw [sameTerm] at hb
  exact Option.some.inj (hb.symm.trans ho)

theorem election_safety_steady : (steady.node 3 "b").role = .leader ∧ (steady.node 11 "b").role = .leader ∧ "b" = "b" :=
  ⟨by decide +kernel, by decide +kernel,
    election_safety steady (i := 3) (j := 11) (by decide) (by decide) (by decide +kernel)
      (by decide +kernel) (by decide +kernel)⟩

def FixedRun.Leads (run : FixedRun) (i : Nat) (a : NodeId) (t : Nat) : Prop :=
  a ∈ run.members ∧ (run.node i a).role = .leader ∧ (run.node i a).state.currentTerm = t

/-- Within a term the log of its leader only grows. -/
theorem leader_append_only (run : FixedRun) {i j t : Nat} {a b : NodeId} (later : i ≤ j) (leadsA : run.Leads i a t)
    (leadsB : run.Leads j b t) : (run.node i a).mem.entries <+: (run.node j b).mem.entries := by
  obtain ⟨hs, he, hr⟩ := run.exists_histories .unguarded False.elim False.elim
  obtain ⟨ha, la, rfl⟩ := leadsA
  obtain ⟨hb, lb, ht⟩ := leadsB
  obtain ⟨hl, hi⟩ := ((he i).node ha).leader la
  have hp := (hr later).llog (by rw [hl]; exact Option.some_ne_none a)
  rwa [hi, show ((run.state i).nodes a).state.currentTerm = _ from ht.symm, ClusterRun.node, (((he j).node hb).leader lb).2] at hp

theorem leader_append_only_steady : (steady.node 3 "b").mem.entries <+: (steady.node 9 "b").mem.entries :=
  leader_append_only steady (t := 1) (by decide) ⟨by decide, by decide +kernel⟩ ⟨by decide, by decide +kernel⟩

/-- Whoever leads has a quorum behind it: the term of each of its members is later, or the same and the vote is for the leader. -/
theorem leader_backed (run : FixedRun) {i t : Nat} {a : NodeId} (leads : run.Leads i a t) :
    ∃ Q, run.conf.quorums.isQuorum Q ∧ ∀ q ∈ Q, q ∈ run.members →
      t < (run.node i q).state.currentTerm ∨ t = (run.node i q).state.currentTerm ∧ (run.node i q).state.votedFor = a := by
  obtain ⟨hs, he, -⟩ := run.exists_histories .unguarded False.elim False.elim
  obtain ⟨ha, la, rfl⟩ := leads
  have inv := (he i).sim.logInv
  obtain ⟨-, Q, hq, hv⟩ := inv.elected (((he i).node ha).leader la).1
  refine ⟨Q, hq, fun q hm hb => ?_⟩
  have hn := (he i).node hb
  have hw : (hs i).vote q (run.node i a).state.currentTerm = _ := hv q hm
  refine (hn.term ▸ inv.voted hw).lt_or_eq.imp_right fun hl => ⟨hl, ?_⟩
  rw [hl, ClusterRun.node, hn.vote, HardState.vote] at hw
  split at hw
  · cases hw
  · exact Option.some.inj hw

theorem leader_backed_steady : ∃ Q, steady.conf.quorums.isQuorum Q ∧ ∀ q ∈ Q, q ∈ steady.members →
    1 < (steady.node 11 q).state.currentTerm ∨ 1 = (steady.node 11 q).state.currentTerm ∧ (steady.node 11 q).state.votedFor = "b" :=
  leader_backed steady ⟨by decide, by decide +kernel⟩

lemma MemoryStore.Plain.entryAt_zero {st : MemoryStore} (hp : st.Plain) : st.entryAt 0 = none := by
  rw [MemoryStore.entryAt_eq, Option.filter_eq_none_iff]
  intro e hf
  obtain ⟨i, hf⟩ := List.getElem?_of_mem (List.mem_of_getElem? hf)
  simp [hp.numbered i e hf]

/-- Logs that agree on their first `k` entries agree at every index up to `k`. -/
lemma MemoryStore.Plain.entryAt_eq_of_take_eq {left right : MemoryStore} (hl : left.Plain)
    (hp : right.Plain) (hs : left.entries.take k = right.entries.take k) (hw : j ≤ k) : left.entryAt j = right.entryAt j := by
  cases j with
  | zero => rw [hl.entryAt_zero, hp.entryAt_zero]
  | succ j =>
    rw [hl.entryAt, hp.entryAt]
    have ha := congrArg (·[j]?) hs
    simpa [List.getElem?_take, show j < k by omega] using ha

/-- In every state, stores that share an entry's index and term agree from there
downwards, indexes count from 1 and terms never decrease. -/
theorem log_matching (run : FixedRun) (i : Nat) {a b : NodeId} (memberA : a ∈ run.members)
    (memberB : b ∈ run.members) :
    (∀ e ∈ (run.node i a).mem.entries, ∀ e' ∈ (run.node i b).mem.entries,
      e.index = e'.index → e.term = e'.term → ∀ k ≤ e.index, (run.node i a).mem.entryAt k = (run.node i b).mem.entryAt k) ∧
    (∀ k e, (run.node i a).mem.entries[k]? = some e → e.index = k + 1) ∧
    (run.node i a).mem.entries.Pairwise (·.term ≤ ·.term) := by
  obtain ⟨hs, he, _⟩ := run.exists_histories .unguarded False.elim False.elim
  have inv := (he i).sim.logInv
  have left := (he i).node memberA
  have right := (he i).node memberB
  refine ⟨?_, ?_, (left.sound inv).ascending⟩
  · intro e hc e' hl hb hm k hw
    obtain ⟨hp, hf⟩ := left.getElem?_of_mem hc
    have ho := (right.getElem?_of_mem hl).2
    rw [← hb] at ho
    have ha := (left.sound inv).traced.matching (right.sound inv).traced hf ho hm
    rw [Nat.sub_add_cancel hp] at ha
    exact left.plain.entryAt_eq_of_take_eq right.plain ha hw
  intro k e hf
  have := left.plain.numbered k e hf
  omega

theorem log_matching_steady :
    (steady.node 12 "b").mem.entries.length = 2 ∧ (steady.node 12 "c").mem.entries.length = 3 ∧
    ∀ e ∈ (steady.node 12 "b").mem.entries, ∀ e' ∈ (steady.node 12 "c").mem.entries,
      e.index = e'.index → e.term = e'.term →
        ∀ k ≤ e.index, (steady.node 12 "b").mem.entryAt k = (steady.node 12 "c").mem.entryAt k :=
  ⟨by decide +kernel, by decide +kernel, (log_matching steady 12 (by decide) (by decide)).1⟩

/-- Whatever a leader commits is in the log of every leader of a later term, at
the same indexes. -/
def FixedRun.LeadersComplete (run : FixedRun) : Prop :=
  ∀ {i j : Nat} {a b : NodeId}, a ∈ run.members → b ∈ run.members →
    ∀ r ∈ (run.node i a).history.commits, (run.node j b).role = .leader →
      r.term < (run.node j b).state.currentTerm →
        ∀ k, 0 < k → k ≤ r.index → ∃ e, r.entries[k - 1]? = some e ∧ e.index = k ∧ (run.node j b).mem.entryAt k = some e

theorem leader_completeness (run : FixedRun) (guarded : run.Meets replicationGuard) :
    run.LeadersComplete := by
  intro i j a b hu hm r hx hk he k hp hw
  obtain ⟨hs, hg, hr⟩ := run.exists_histories .replicated (fun _ => guarded) False.elim
  have hn := (hg j).node hm
  obtain ⟨hq, hz⟩ := hn.leader hk
  have hb := hr (Nat.le_max_left i j)
  have hy := hr (Nat.le_max_right i j)
  have hl := hg (max i j)
  obtain ⟨_, done, ha, hv⟩ := record_mono hb (((hg i).node hu).commits trivial r hx)
  have led : (hs j).lead (run.node j b).state.currentTerm ≠ none := by
    rw [ClusterRun.node, hq]
    simp
  -- the committed prefix is what the later leader was elected with
  have hj := done.prefix_elog (hl.sim.commitInv trivial) (hy.lead_ne led) he
  rw [hy.elog led] at hj
  have hc := hj.trans ((hg j).sim.logInv.leads led).2
  obtain ⟨e, hf⟩ : ∃ e, r.entries[k - 1]? = some e :=
    ⟨_, List.getElem?_eq_getElem (by omega)⟩
  have ht : (run.node j b).mem.entries[k - 1]? = some e := by
    have ho : (((hs (max i j)).llog r.term).take r.index)[k - 1]? = some e := by
      rw [List.getElem?_take, if_pos (by omega)]
      exact prefix_getElem? ha hf
    have := prefix_getElem? hc ho
    rwa [ClusterRun.node, hz] at this
  have hi := hn.plain.numbered (k - 1) e ht
  refine ⟨e, hf, by omega, ?_⟩
  have := hn.plain.entryAt (k - 1)
  rw [Nat.sub_add_cancel hp] at this
  exact this.trans ht

theorem leader_completeness_steady :
    ((steady.node 12 "b").history.commits.map (·.index) = [2] ∧
      (steady.node 12 "c").role = .leader ∧ (steady.node 12 "c").state.currentTerm = 2) ∧
    steady.LeadersComplete :=
  ⟨by decide +kernel, leader_completeness steady (trio_meets (by decide +kernel))⟩

/-- A rejection from an earlier term moves the leader's next index for "b" past
its own log. The request it then makes names no previous term, "b" has no entry
there either and acknowledges one it does not have. -/
def phantomActs : List Action :=
  [.call "b" 0 .beginElection, .deliver 0 "c" 0, .deliver 1 "b" 0,
   .call "b" 0 (.appendCommand "x"), .call "b" 0 (.appendCommand "y"),
   .call "b" 0 (.appendCommand "z"),
   .call "a" 0 .beginElection, .call "a" 0 .beginElection, .deliver 3 "c" 0, .deliver 4 "a" 0,
   .call "a" 0 (.makeAppendEntries "b"),
   .call "a" 10 (.checkLeaderQuorum 5),
   .call "a" 10 .beginElection, .deliver 6 "b" 10, .deliver 7 "a" 10,
   -- the rejection, sent in the term that "a" leads by now
   .deliver 5 "b" 10,
   .call "a" 10 (.makeAppendEntries "b"), .deliver 9 "b" 10, .deliver 10 "a" 10,
   .call "a" 10 (.makeAppendEntries "b"), .deliver 11 "b" 10,
   .deliver 8 "a" 10,
   .call "a" 10 (.makeAppendEntries "b"), .deliver 13 "b" 10,
   .call "a" 10 (.appendCommand "w"),
   .deliver 14 "a" 10,
   .call "b" 10 .beginElection, .deliver 15 "c" 10, .deliver 16 "b" 10]

def phantom : FixedRun := trio {} phantomActs (by decide)

theorem phantom_not_complete : ¬ phantom.LeadersComplete := by
  intro hm
  have ho : ∃ r ∈ (phantom.node 29 "a").history.commits, r.term = 3 ∧ r.index = 3 ∧
      (r.entries[2]?.map (·.command)) = some "w" := by decide +kernel
  obtain ⟨r, hb, ha, hi, hc⟩ := ho
  have he : (phantom.node 29 "b").role = .leader ∧ (phantom.node 29 "b").state.currentTerm = 4 := by decide +kernel
  obtain ⟨e, hf, _, ht⟩ := hm (i := 29) (j := 29) (a := "a") (b := "b") (by decide)
    (by decide) r hb he.1 (by omega) 3 (by omega) (by omega)
  have hl : ((phantom.node 29 "b").mem.entryAt 3).map (·.command) = some "" := by decide +kernel
  rw [ht] at hl
  rw [hf] at hc
  exact absurd (hc.symm.trans hl) (by decide)

/-- Entries that any two nodes ever hand to their state machines at one index are
the same. -/
def FixedRun.AppliesAgree (run : FixedRun) : Prop :=
  ∀ {i j : Nat} {a b : NodeId}, a ∈ run.members → b ∈ run.members →
    ∀ e ∈ (run.node i a).history.passed, ∀ e' ∈ (run.node j b).history.passed, e.index = e'.index → e = e'

theorem state_machine_safety (run : FixedRun) (guarded : run.Meets replicationGuard)
    (covered : run.Meets commitGuard) : run.AppliesAgree := by
  intro i j a b hg hm e hb e' hj hk
  obtain ⟨hs, hc, hr⟩ := run.exists_histories .full (fun _ => guarded) fun _ => covered
  have hl := (hc (max i j)).sim
  obtain ⟨T, c, done, hp, hn, ho⟩ := passed_mono (hr (Nat.le_max_left i j)) (((hc i).node hg).passed trivial e hb)
  obtain ⟨T', c', he, _, hw, hf⟩ := passed_mono (hr (Nat.le_max_right i j)) (((hc j).node hm).passed trivial e' hj)
  have ha := done.agree hl.logInv (hl.commitInv trivial) he (show e.index - 1 < c by omega) (show e.index - 1 < c' by omega)
  rw [ho, hk, hf] at ha
  exact Option.some.inj ha

theorem state_machine_safety_steady :
    ((steady.node 12 "b").history.passed.map (·.command) = ["", "x"] ∧
      (steady.node 12 "c").history.passed.map (·.command) = ["", "x"]) ∧
    steady.AppliesAgree :=
  ⟨by decide +kernel, state_machine_safety steady (trio_meets (by decide +kernel)) (trio_meets (by decide +kernel))⟩

/-- "c" kept a command of term 1 that lost to "b"'s entry of term 2. The first
request of "a" that matches its log carries one entry and the commit index 2, so
"c" applies the lost command. -/
def staleTailActs : List Action :=
  [.call "c" 0 .beginElection, .deliver 0 "b" 0, .deliver 1 "c" 0,
   .call "c" 0 (.appendCommand "x"),
   .call "c" 0 (.makeAppendEntries "b"), .deliver 2 "b" 0,
   .call "c" 0 (.makeAppendEntries "a"), .deliver 4 "a" 0,
   .call "b" 0 .beginElection, .deliver 6 "a" 0, .deliver 7 "b" 0,
   .call "b" 0 (.makeAppendEntries "a"), .deliver 8 "a" 0, .deliver 9 "b" 0,
   .call "b" 0 (.makeAppendEntries "a"), .deliver 10 "a" 0,
   .call "a" 0 .beginElection, .deliver 12 "b" 0, .deliver 13 "a" 0,
   .call "a" 0 (.makeAppendEntries "c"), .deliver 14 "c" 0, .deliver 15 "a" 0,
   .call "a" 0 (.makeAppendEntries "c"), .deliver 16 "c" 0]

def staleTail : FixedRun := trio { maxEntriesPerAppend := 1 } staleTailActs (by decide)

theorem staleTail_not_agree : ¬ staleTail.AppliesAgree := by
  intro hg
  have hp : ∃ e ∈ (staleTail.node 24 "c").history.passed, e.index = 2 ∧ e.command = "x" := by decide +kernel
  have ha : ∃ e ∈ (staleTail.node 24 "b").history.passed, e.index = 2 ∧ e.type = .noOp ∧ e.command = "" := by decide +kernel
  obtain ⟨e, hb, hn, hc⟩ := hp
  obtain ⟨e', hl, hi, _, ho⟩ := ha
  have hs := hg (i := 24) (j := 24) (a := "c") (b := "b") (by decide) (by decide) e hb e' hl (hn.trans hi.symm)
  rw [hs, ho] at hc
  exact absurd hc (by decide)

end Cnetmod.Raft
