import Cnetmod.Raft.Guarantees.SimulationSteps

/-!
# Every run is simulated

Moves compose to activities, activities are what calls and deliveries do, and a
restart takes over what was saved; so a run of a cluster with one voter set is
matched by a rising sequence of histories.
-/
namespace Cnetmod.Raft

open RaftNode Cluster Option Consensus

section Moves

variable {g : Guards} {conf : Configuration} {c : Cluster} {h : RaftHistory} {id : NodeId}


/-- Without snapshots in the network, none can arrive. -/
lemma Sim.no_installSnapshot (sim : Sim g conf c h) (ha : Admissible g c id n0 inp) :
    inp ≠ .receive src (.installSnapshot req) := by
  intro hr
  obtain ⟨dst, hs, _⟩ := ha.envelope hr
  exact sim.sent _ hs

lemma Sim.no_installSnapshotResponse (sim : Sim g conf c h) (ha : Admissible g c id n0 inp) :
    inp ≠ .receive src (.installSnapshotResponse resp) := by
  intro hr
  obtain ⟨dst, hs, _⟩ := ha.envelope hr
  exact sim.sent _ hs

lemma NodeSim.fault (m : NodeSim g conf h id n) :
    NodeSim g conf h id { n with store := { mem := n.mem, faults := n.store.faults.drop 1 } } :=
  { m with healthy := by simp [m.healthy] }

/-- What an acknowledgement credits its sender with. -/
lemma Sim.acked (sim : Sim g conf c h) (ha : Admissible g c id n0 inp)
    (hr : inp = .receive src (.appendResponse resp)) (hs : resp.success = true)
    (hg : g.replication) : resp.matchIndex ≤ h.ack src resp.term := by
  obtain ⟨dst, he, _⟩ := ha.envelope hr
  exact sim.sent _ he hg hs

/-- Whatever the code does in one move, the history follows. -/
lemma Sim.move (sim : Sim g conf c h) (hn : NodeSim g conf h id n)
    (hu : conf.joint = false) (ha : Admissible g c id n0 inp) (hmo : Move n0 inp n m out) :
    ∃ h', h.Extends h' ∧ Sim g conf (c.put id m out) h' := by
  have hf := ha.fixed
  cases hmo with
  | quiet hsa => exact sim.unnoticed (hn.of_core hsa) (by simp)
  | say dst body hi =>
    refine sim.unnoticed hn fun m hli => ?_
    rw [post, List.mem_singleton] at hli
    subst hli
    exact MessageSim.idle hi
  | answerSnapshot src req resp hr => exact absurd hr (sim.no_installSnapshot ha)
  | sendAppend peer has hsa =>
    refine sim.unnoticed hn fun m hli => ?_
    rw [post, List.mem_singleton, show n.id = id from hn.self] at hli
    subst hli
    refine MessageSim.appendEntries sim hn fun hg => ?_
    have hl := ha.replication hg
    subst has
    rw [core_role hsa]
    exact of_decide_eq_true hl
  | sendSnapshot peer has | reconfigure change next pg has => simp [has, Input.fixed] at hf
  | persist => exact sim.unnoticed hn.persist (by simp)
  | stop error => exact sim.unnoticed (hn.stop error) (by simp)
  | fault => exact sim.unnoticed hn.fault (by simp)
  | retire => exact sim.unnoticed (hn.resign (.inl rfl) ∅ []) (by simp)
  | newTerm t hw => exact sim.newTerm hn hw
  | canvass votes => exact sim.unnoticed (hn.resign (.inr rfl) votes n.pendingReads) (by simp)
  | stand hm _ => exact sim.stand hn hm
  | grant src req hr hb hm hc hun hlo => exact sim.grant hn ha hr hb hm hc hun hlo
  | tally src resp hr hb hv _ hc => exact sim.unnoticed (sim.tally hn ha hr hb hv hc) (by simp)
  | win pg hca he hfr => exact sim.win hn hca he hfr
  | append e hl next hx hk =>
    refine sim.append hn hl next hx fun hj => ?_
    obtain ⟨change, _, has, _⟩ := hk hj
    simp [has, Input.fixed] at hf
  | selfProgress matched => exact sim.unnoticed (hn.selfProgress matched) (by simp)
  | probe pg hsa => exact sim.unnoticed (hn.probe hsa) (by simp)
  | replicate src resp hr hsu _ hc =>
    refine sim.unnoticed (hn.replicate fun hg => ?_) (by simp)
    rw [← hc]
    exact sim.acked ha hr hsu hg
  | replicateSnapshot src resp i hr => exact absurd hr (sim.no_installSnapshotResponse ha)
  | readAck src resp read => exact sim.unnoticed (hn.acknowledgeRead src read) (by simp)
  | commitQuorum i hl hq own hy hre => exact sim.commitQuorum hn hl hq own hy hre
  | commitAlone i hl hal _ hp hne => exact sim.commitAlone hn hu hl hal hne hp
  | accept src req app ps hr ho hc hse hz hsc ran
      hsu =>
    exact sim.accept hn ha hr ho hc hse hz hsc ran hsu
  | torn src req thrown ps hr ho ran =>
    obtain ⟨res, store', ht, _⟩ := appendFromLeader_healthy hn.healthy req.prevLogIndex req.prevLogTerm req.entries
    simp [ht] at ran
  | pass e hs _ due => exact sim.unnoticed (NodeSim.pass sim hn hs due) (by simp)
  | applied e | readIndex request has hl read | dropReads reads hke => exact sim.unnoticed { hn with } (by simp)
  | adopt e hs _ _ _ hk | adoptLeaving e _ hs _ _ _ hk => exact absurd hk (hn.fixed e hs)
  | restore src req md hr => exact absurd hr (sim.no_installSnapshot ha)
  | saveMetadata uri md has => rcases has with has | ⟨p, has⟩ <;> simp [has, Input.fixed] at hf
  | compact has => rcases has with ⟨uri, has⟩ | ⟨p, has⟩ <;> simp [has, Input.fixed] at hf

/-- Messages stay deliverable. -/
lemma Admissible.put (ha : Admissible g c id n0 inp) : Admissible g (c.put id m out) id n0 inp :=
  { ha with
    delivered := by
      intro src body hr
      obtain ⟨m, hs, he⟩ := ha.delivered src body hr
      exact ⟨m, List.mem_append_left _ hs, he⟩ }

lemma Sim.activity (hu : conf.joint = false) (hc : Activity n0 inp n m out) :
    ∀ {c : Cluster} {h : RaftHistory}, Sim g conf c h → NodeSim g conf h id n → Admissible g c id n0 inp → id ∈ c.members →
      ∃ h', h.Extends h' ∧ Sim g conf (c.put id m out) h' := by
  induction hc with
  | done n =>
    intro c h sim hn ha _
    exact sim.unnoticed hn (by simp)
  | step hb _ ih =>
    intro c h sim hn ha hm
    obtain ⟨h', he, hs⟩ := sim.move hn hu ha hb
    have ho := hs.nodes id hm
    rw [put_nodes_self] at ho
    obtain ⟨h'', hex, hf⟩ := ih hs ho ha.put hm
    exact ⟨h'', he.trans hex, by rwa [put_put] at hf⟩

end Moves

/-- Actions that change no membership and make no snapshot. -/
def Action.fixed : Action → Bool
  | .call _ _ request => (Input.call request).fixed
  | _ => true

lemma Cluster.trigger_fixed {c : Cluster} {id : NodeId} (hf : act.fixed = true) (hr : c.trigger act = some (id, inp)) :
    inp.fixed = true := by
  cases act with
  | call tgt ck call =>
    simp only [trigger, some.injEq, Prod.mk.injEq] at hr
    rw [← hr.2]
    exact hf
  | deliver k dst ck =>
    simp only [trigger, bind_eq_some_iff] at hr
    obtain ⟨m, _, hit⟩ := hr
    split at hit
    · simp only [some.injEq, Prod.mk.injEq] at hit
      rw [← hit.2]
      rfl
    · simp at hit
  | restart tgt mc ck =>
    simp only [trigger, some.injEq, Prod.mk.injEq] at hr
    rw [← hr.2]
    rfl
  | idle => simp [trigger] at hr

section Runs

variable {g : Guards} {conf : Configuration} {c : Cluster} {h : RaftHistory} {id : NodeId}

/-- A restart forgets the role and keeps what was saved. -/
lemma NodeSim.restart (hn : NodeSim g conf h id n) (hs : n.Saved fun st => st) (mc : Option StateMachine) (ck : Int) :
    NodeSim g conf h id (n.restart mc ck) := by
  have st := (restart_saved_state hs hn.plain.noSnapshot mc ck).2
  have hi : n.store.mem.snapshot.valid = false := by
    have := hn.plain.noSnapshot
    unfold mem at this
    simp [SnapshotMetadata.valid, this]
  have hr : (n.restart mc ck).role = .follower := rfl
  exact {
    self := hn.self
    sameConf := by
      simp only [RaftNode.restart, create, MemoryStore.loadSnapshotMetadata, hi, Bool.false_and]
      exact hn.initial
    initial := hn.initial
    healthy := hn.healthy
    plain := hn.plain
    fixed := hn.fixed
    term := by rw [st]; exact hn.term
    log := hn.log
    vote := by rw [st]; exact hn.vote
    voter := by simp [hr]
    candidate := by simp [hr]
    leader := by simp [hr]
    credit := by simp [hr]
    commits := hn.commits
    ownCommits := by simp [hr]
    settled := by rw [st]; exact hn.settled
    passed := hn.passed }

/-- `Sim` between steps, where every node has saved its hard state. -/
structure Simulated (g : Guards) (conf : Configuration) (members : Finset NodeId) (c : Cluster)
    (h : RaftHistory) : Prop where
  sim : Sim g conf c h
  sameMembers : c.members = members
  saved : ∀ id ∈ members, (c.nodes id).Saved fun state => state

variable {members : Finset NodeId}

lemma Simulated.react (all : Simulated g conf members c h) (hu : conf.joint = false) (ck : Int) (hm : id ∈ c.members)
    (ha : Admissible g c id (c.nodes id) inp) : ∃ h', h.Extends h' ∧ Simulated g conf members (c.react id ck inp) h' := by
  have hn := all.sim.nodes id hm
  have hs := all.saved id (all.sameMembers ▸ hm)
  rw [react_eq_put hm]
  rcases inp.restart_or_running with ⟨mc, rfl⟩ | hr
  · obtain ⟨h', he, hb⟩ := all.sim.unnoticed (hn.restart hs mc ck) (show ∀ m ∈ [], _ by simp)
    refine ⟨h', he, hb, all.sameMembers, ?_⟩
    have hg := (restart_saved_state hs hn.plain.noSnapshot mc ck).1
    exact put_nodes_forall hg all.saved
  obtain ⟨h', he, hb⟩ := Sim.activity hu (react_activity (c.nodes id) ck hr) all.sim hn ha hm
  refine ⟨h', he, hb, all.sameMembers, ?_⟩
  exact put_nodes_forall (react_saved hs ck hr) all.saved

lemma Simulated.step (all : Simulated g conf members c h) (hu : ∀ id ∈ members, conf.joint = false) (hf : act.fixed = true)
    (hr : g.replication → c.meets replicationGuard act = true) (hc : g.commits → c.meets commitGuard act = true) :
    ∃ h', h.Extends h' ∧ Simulated g conf members (c.step act) h' := by
  rw [step_eq]
  unfold meets at hr hc
  split
  · rename_i id inp hre
    simp only [hre] at hr hc
    by_cases hm : id ∈ c.members
    · refine all.react (hu id (all.sameMembers ▸ hm)) act.clock hm ⟨trigger_fixed hf hre, ?_, hr, hc⟩
      rintro src body rfl
      exact trigger_delivered hre
    · refine ⟨h, .refl h, ?_⟩
      simpa [Cluster.react, hm] using all
  · exact ⟨h, .refl h, all⟩

end Runs

/-- A run of a cluster that starts with one voter set, changes no membership and
makes no snapshot. -/
structure FixedRun extends ClusterRun where
  conf : Configuration
  common : ∀ id ∈ members, Configuration.ofState (cfg id).initialConfiguration = conf
  fixed : ∀ i, (acts i).fixed = true

lemma Configuration.initial_not_joint (cfg : RaftConfig) : (Configuration.ofState cfg.initialConfiguration).joint = false := by
  simp [Configuration.joint, ConfigurationState.joint, Configuration.ofState,
    RaftConfig.initialConfiguration, normalized, sortUnique]

namespace FixedRun

variable (run : FixedRun)

lemma not_joint : ∀ id ∈ run.members, run.conf.joint = false := fun id hm =>
  run.common id hm ▸ Configuration.initial_not_joint (run.cfg id)

lemma boot_node {id : NodeId} (hm : id ∈ run.members) : NodeSim g run.conf History.start id (run.node 0 id) where
  self := run.named id hm
  sameConf := run.common id hm
  initial := run.common id hm
  healthy := rfl
  plain := ⟨rfl, .nil 0⟩
  fixed := fun _ hl => absurd hl List.not_mem_nil
  term := rfl
  log := rfl
  vote := rfl
  voter := by simp [run.boot_role]
  candidate := by simp [run.boot_role]
  leader := by simp [run.boot_role]
  credit := by simp [run.boot_role]
  commits := fun _ _ hl => absurd hl List.not_mem_nil
  ownCommits := by simp [run.boot_role]
  settled _ := .inl rfl
  passed := fun _ _ hl => absurd hl List.not_mem_nil

lemma boot : Simulated g run.conf run.members (run.state 0) History.start where
  sim :=
    { logInv := .start
      commitInv := fun _ => .start
      nodes := fun _ hm => run.boot_node hm
      sent := fun _ hs => absurd hs List.not_mem_nil }
  sameMembers := rfl
  saved _ _ := ⟨rfl, rfl⟩

/-- The run is matched by a rising sequence of histories. -/
lemma exists_histories (g : Guards) (hr : g.replication → run.Meets replicationGuard) (hc : g.commits → run.Meets commitGuard) :
    ∃ hs : Nat → RaftHistory, (∀ i, Simulated g run.conf run.members (run.state i) (hs i)) ∧
      ∀ {i j}, i ≤ j → (hs i).Extends (hs j) := by
  refine exists_simulation (Simulated g run.conf run.members) History.Extends .refl .trans ⟨_, run.boot⟩ ?_
  intro i h all
  exact all.step run.not_joint (run.fixed i) (fun hg => hr hg i) (fun hg => hc hg i)

end FixedRun

end Cnetmod.Raft
