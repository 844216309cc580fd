import Cnetmod.Consensus.Ballots
import Cnetmod.Raft.Spec.Quorums
import Cnetmod.Raft.Spec.Runs
import Cnetmod.Raft.Spec.Saved

/-!
# Elections across membership changes

A leader counts under a configuration from the moment it appends it, a follower
from the moment it applies it, and either may stand meanwhile. What keeps a term
to one leader is that the configurations under which nodes stand in it overlap;
nothing in the code sees to that, so it is a condition on the steps that stand.
-/
namespace Cnetmod.Raft

open HardState Configuration Cluster Consensus List

abbrev RaftBallots := Ballots NodeId Configuration

/-- The votes that elect under a configuration. -/
def Configuration.Elects (conf : Configuration) (votes : Finset NodeId) : Prop :=
  conf.hasQuorum votes = true

/-- Any two quorums of votes share a voter. -/
def Configuration.Overlaps (conf conf' : Configuration) : Prop :=
  Overlapping Configuration.Elects conf conf'

lemma Configuration.overlaps_self (conf : Configuration) : conf.Overlaps conf := by
  intro votes votes' left right
  obtain ⟨q, _, hn, hi⟩ := ((hasQuorum_iff _ _).mp left).meet ((hasQuorum_iff _ _).mp right)
  exact ⟨q, by simpa using hn, by simpa using hi⟩

structure BallotSim (h : RaftBallots) (id : NodeId) (n : RaftNode) : Prop where
  self : n.cfg.id = id
  unspent : ∀ t, n.state.currentTerm < t → h.vote id t = none
  vote : h.vote id n.state.currentTerm = n.state.vote
  stood : ∀ t conf, (t, conf) ∈ n.history.stood ↔ h.stood id t = some conf
  reached : ∀ t conf, h.stood id t = some conf → t ≤ n.state.currentTerm
  candidate : n.role = .candidate → h.stood id n.state.currentTerm = some n.conf ∧
    ∀ q ∈ n.votesGranted, h.vote q n.state.currentTerm = some id
  leader : n.role = .leader → Elected Configuration.Elects h id n.state.currentTerm

/-- Requests come from the candidate, and grants were recorded. -/
def BallotMessage (h : RaftBallots) (m : Envelope) : Prop :=
  match m.body with
  | .requestVote req => req.preVote = false → req.candidateId ≠ "" → m.src = req.candidateId
  | .voteResponse resp => resp.preVote = false → resp.voteGranted = true →
      ∃ candidate, m.dst = some candidate ∧ h.vote m.src resp.term = some candidate
  | _ => True

structure Balloted (c : Cluster) (h : RaftBallots) : Prop where
  coherent : Coherent Configuration.Elects h
  nodes : ∀ id ∈ c.members, BallotSim h id (c.nodes id)
  absent : ∀ id, id ∉ c.members → ∀ t, h.stood id t = none
  sent : ∀ m ∈ c.sent, BallotMessage h m

/-- `h'` extends `h` by something `id` did. -/
structure BallotLocal (id : NodeId) (h h' : RaftBallots) : Prop where
  ext : h.Extends h'
  vote : ∀ q t, q ≠ id → h'.vote q t = h.vote q t
  stood : ∀ q t, q ≠ id → h'.stood q t = h.stood q t

section Steps

variable {c : Cluster} {h h' : RaftBallots} {id q : NodeId} {n0 n m : RaftNode} {input : Input}

lemma BallotLocal.refl (id : NodeId) (h : RaftBallots) : BallotLocal id h h :=
  ⟨.refl h, fun _ _ _ => rfl, fun _ _ _ => rfl⟩

lemma BallotSim.mono (sim : BallotSim h q n) (hc : BallotLocal id h h') (ho : q ≠ id) : BallotSim h' q n where
  self := sim.self
  unspent t hla := (hc.vote q t ho).trans (sim.unspent t hla)
  vote := (hc.vote q _ ho).trans sim.vote
  stood t conf := by
    rw [hc.stood q t ho]
    exact sim.stood t conf
  reached t conf hs := sim.reached t conf (hc.stood q t ho ▸ hs)
  candidate hr := by
    obtain ⟨hs, hv⟩ := sim.candidate hr
    exact ⟨hc.ext.stood hs, fun p hl => hc.ext.vote (hv p hl)⟩
  leader hr := (sim.leader hr).mono hc.ext

lemma BallotMessage.mono (ext : h.Extends h') {m : Envelope} (sim : BallotMessage h m) : BallotMessage h' m := by
  unfold BallotMessage at sim ⊢
  split at sim
  · exact sim
  · intro hb hg
    obtain ⟨cand, dst, hv⟩ := sim hb hg
    exact ⟨cand, dst, ext.vote hv⟩
  · trivial

lemma Balloted.put (sim : Balloted c h) (ha : id ∈ c.members)
    (hc : BallotLocal id h h') (hb : Coherent Configuration.Elects h')
    (hn : BallotSim h' id n) (he : ∀ m ∈ out, BallotMessage h' m) :
    Balloted (c.put id n out) h' where
  coherent := hb
  nodes q hl := by
    by_cases hs : q = id
    · subst hs
      simpa [Cluster.put] using hn
    · simpa [Cluster.put, hs] using (sim.nodes q hl).mono hc hs
  absent q hm t := by
    have ho : q ≠ id := fun hs => hm (hs ▸ ha)
    exact (hc.stood q t ho).trans (sim.absent q hm t)
  sent m hl := by
    rcases mem_append.mp hl with old | new
    · exact (sim.sent m old).mono hc.ext
    · exact he m new

/-- Moves that keep the ballot, and a candidate's count, do not show in the book. -/
lemma BallotSim.of_same (hn : BallotSim h id n) (cfg : m.cfg = n.cfg)
    (hs : RaftNode.ballot m.state = RaftNode.ballot n.state) (ha : m.history.stood = n.history.stood)
    (hc : m.role = .candidate → n.role = .candidate ∧ m.conf = n.conf ∧ m.votesGranted = n.votesGranted)
    (hl : m.role = .leader → n.role = .leader) : BallotSim h id m := by
  have ht : m.state.currentTerm = n.state.currentTerm := congrArg Prod.fst hs
  have hv : m.state.votedFor = n.state.votedFor := congrArg Prod.snd hs
  constructor
  · rw [cfg]
    exact hn.self
  · rw [ht]
    exact hn.unspent
  · rw [ht, hn.vote, HardState.vote, HardState.vote, hv]
  · rw [ha]
    exact hn.stood
  · rw [ht]
    exact hn.reached
  · intro hr
    obtain ⟨was, ho, hb⟩ := hc hr
    rw [ht, ho, hb]
    exact hn.candidate was
  intro hr
  rw [ht]
  exact hn.leader (hl hr)

lemma BallotMessage.idle {m : Envelope} (hi : m.body.Idle) : BallotMessage h m := by
  obtain ⟨src, dst, body⟩ := m
  cases body with
  | requestVote req =>
    intro hb hn
    rcases hi with pre | hu
    · simp [hb] at pre
    · exact absurd hu hn
  | voteResponse resp =>
    intro hb hg
    rcases hi with pre | hr
    · simp [hb] at pre
    · simp [hg] at hr
  | _ => trivial

/-- A move that the book does not show. -/
lemma Balloted.unnoticed (sim : Balloted c h) (he : id ∈ c.members)
    (hn : BallotSim h id n) (hm : ∀ m ∈ out, BallotMessage h m) : ∃ h', BallotLocal id h h' ∧ Balloted (c.put id n out) h' :=
  ⟨h, .refl id h, sim.put he (.refl id h) sim.coherent hn hm⟩

lemma BallotSim.newTerm (hn : BallotSim h id n) (hl : n.state.currentTerm < term) : BallotSim h id { n with
        role := .follower, votesGranted := ∅, pendingReads := []
        state.currentTerm := term, state.votedFor := "" } where
  self := hn.self
  unspent t ha := hn.unspent t (hl.trans ha)
  vote := hn.unspent term hl
  stood := hn.stood
  reached t conf hs := (hn.reached t conf hs).trans hl.le
  candidate := by simp
  leader := by simp

lemma Balloted.stand (sim : Balloted c h) (hm : id ∈ c.members) (hn : BallotSim h id n) (hk : n.conf.contains n.id = true)
    (hp : ∀ b conf, b ≠ id → h.stood b (n.state.currentTerm + 1) = some conf → n.conf.Overlaps conf) :
    ∃ h', BallotLocal id h h' ∧ Balloted (c.put id n.stand (n.post none (.requestVote n.ballotRequest))) h' := by
  have hg : n.id = id := hn.self
  have he := ne_empty_of_contains hk
  have hv := hn.unspent (n.state.currentTerm + 1) (Nat.lt_succ_self _)
  have hf : h.stood id (n.state.currentTerm + 1) = none := by
    by_contra ht
    obtain ⟨conf, hs⟩ := Option.ne_none_iff_exists'.mp ht
    have := hn.reached _ conf hs
    omega
  have hc : BallotLocal id h (h.stand id (n.state.currentTerm + 1) n.conf) :=
    ⟨Ballots.stand_extends hv hf n.conf, fun q t ho => put_ne _ _ (.inl ho), fun q t ho => put_ne _ _ (.inl ho)⟩
  refine ⟨_, hc, sim.put hm hc (sim.coherent.stand hp) ?_ ?_⟩
  · exact {
      self := hn.self
      unspent := by
        intro t ha
        have ha : n.state.currentTerm + 1 < t := ha
        exact (put_ne h.vote _ (.inr (by omega))).trans (hn.unspent t (by omega))
      vote := by simp [RaftNode.stand, Ballots.stand, vote, put_same, hg, hg ▸ he]
      stood := by
        intro t conf
        simp only [RaftNode.stand, mem_append, mem_singleton, Prod.mk.injEq, hn.stood t conf]
        constructor
        · rintro (old | ⟨rfl, rfl⟩)
          · exact hc.ext.stood old
          · exact put_same _ _ _ _
        intro hs
        rcases put_cases hs with ⟨_, rfl, hb⟩ | ⟨_, old⟩
        · exact .inr ⟨rfl, (Option.some.inj hb).symm⟩
        · exact .inl old
      reached := by
        intro t conf hs
        rcases put_cases hs with ⟨_, rfl, _⟩ | ⟨_, old⟩
        · exact le_rfl
        · exact (hn.reached t conf old).trans (Nat.le_succ _)
      candidate := by
        intro _
        refine ⟨put_same _ _ _ _, ?_⟩
        intro q hl
        simp only [RaftNode.stand, Finset.mem_singleton] at hl
        rw [hl, hg]
        exact put_same _ _ _ _
      leader := by simp [RaftNode.stand] }
  · intro m hj
    rw [RaftNode.post, mem_singleton] at hj
    subst hj
    exact fun _ _ => rfl

variable {src : NodeId}

lemma Balloted.grant (sim : Balloted c h) (hm : id ∈ c.members) (hn : BallotSim h id n)
    {req : RequestVoteRequest} (hs : src = req.candidateId) (hk : n.conf.contains req.candidateId = true)
    (hu : n.state.votedFor = "" ∨ n.state.votedFor = req.candidateId) :
    ∃ h', BallotLocal id h h' ∧ Balloted (c.put id { n with state.votedFor := req.candidateId }
      (n.post src (.voteResponse { term := n.state.currentTerm, voteGranted := true }))) h' := by
  have he := ne_empty_of_contains hk
  have hb : ∀ {h' : RaftBallots}, h'.vote id n.state.currentTerm = some req.candidateId →
      ∀ m ∈ n.post src (.voteResponse { term := n.state.currentTerm, voteGranted := true }), BallotMessage h' m := by
    intro h' hv m hl
    rw [RaftNode.post, mem_singleton, show n.id = id from hn.self] at hl
    subst hl
    exact fun _ _ => ⟨req.candidateId, by rw [hs], hv⟩
  by_cases hf : n.state.votedFor = ""
  · have hj : h.vote id n.state.currentTerm = none := by rw [hn.vote, vote, if_pos hf]
    have hc : BallotLocal id h (h.cast id n.state.currentTerm req.candidateId) :=
      ⟨Ballots.cast_extends hj _, fun q t ho => put_ne _ _ (.inl ho), fun _ _ _ => rfl⟩
    refine ⟨_, hc, sim.put hm hc sim.coherent ?_ (hb (put_same _ _ _ _))⟩
    exact {
      self := hn.self
      unspent := by
        intro t ha
        have ha : n.state.currentTerm < t := ha
        exact (put_ne h.vote _ (.inr (by omega))).trans (hn.unspent t ha)
      vote := by simp [Ballots.cast, vote, put_same, he]
      stood := hn.stood
      reached := hn.reached
      candidate := by
        intro hr
        obtain ⟨ht, hp⟩ := hn.candidate hr
        exact ⟨ht, fun q hl => hc.ext.vote (hp q hl)⟩
      leader := fun hr => (hn.leader hr).mono hc.ext }
  · have hg : n.state.votedFor = req.candidateId := hu.resolve_left hf
    refine sim.unnoticed hm (hn.of_same rfl ?_ rfl (fun hr => ⟨hr, rfl, rfl⟩) fun hr => hr) (hb ?_)
    · simp [RaftNode.ballot, hg]
    · rw [hn.vote, vote, if_neg hf, hg]

lemma BallotSim.tally (hn : BallotSim h id n) (hv : h.vote src n.state.currentTerm = some id) :
    BallotSim h id { n with votesGranted := insert src n.votesGranted } :=
  { hn with
    candidate := by
      intro hr
      obtain ⟨hs, ho⟩ := hn.candidate hr
      refine ⟨hs, fun q hl => ?_⟩
      rcases Finset.mem_insert.mp hl with rfl | old
      · exact hv
      · exact ho q old }

lemma BallotSim.win (hn : BallotSim h id n) (hc : n.role = .candidate) (he : n.conf.hasQuorum n.votesGranted = true) :
    BallotSim h id { n with role := .leader, votesGranted := ∅, progress := pg } :=
  { hn with
    candidate := by simp
    leader := by
      intro _
      obtain ⟨hs, hv⟩ := hn.candidate hc
      exact ⟨n.conf, n.votesGranted, hs, he, hv⟩ }

lemma BallotSim.stop (hn : BallotSim h id n) (e : RaftError) : BallotSim h id (n.stop e) := by
  unfold RaftNode.stop
  split
  · exact hn
  · exact hn.of_same rfl rfl rfl (by simp) (by simp)

lemma BallotSim.persist (hn : BallotSim h id n) : BallotSim h id n.persist := by
  rcases n.persist_eq with ⟨_, hs⟩ | ⟨_, hw⟩ | ⟨_, e, hf⟩
  · rw [hs]
    exact hn
  · rw [hw]
    exact hn.of_same rfl rfl rfl (fun hr => ⟨hr, rfl, rfl⟩) fun hr => hr
  rw [hf]
  refine BallotSim.stop ?_ e
  exact hn.of_same rfl rfl rfl (fun hr => ⟨hr, rfl, rfl⟩) fun hr => hr

/-- What a step has to be like for the book to follow it. -/
structure BallotAdmissible (h : RaftBallots) (c : Cluster) (id : NodeId) (start : RaftNode)
    (input : Input) : Prop where
  delivered : ∀ src body, input = .receive src body → ∃ m ∈ c.sent, m.src = src ∧ m.body = body ∧ m.addressedTo id = true
  overlap : ∀ t conf, standing start input = some (t, conf) → ∀ b conf', b ≠ id → h.stood b t = some conf' → conf.Overlaps conf'

lemma Balloted.move (sim : Balloted c h) (hm : id ∈ c.members) (hn : BallotSim h id n)
    (ha : BallotAdmissible h c id n0 input) (hmo : Move n0 input n m out) :
    ∃ h', BallotLocal id h h' ∧ Balloted (c.put id m out) h' := by
  have hk : ∀ {m : RaftNode}, m.cfg = n.cfg → RaftNode.ballot m.state = RaftNode.ballot n.state →
      m.history.stood = n.history.stood →
      (m.role = .candidate → n.role = .candidate ∧ m.conf = n.conf ∧
        m.votesGranted = n.votesGranted) → (m.role = .leader → n.role = .leader) →
      ∃ h', BallotLocal id h h' ∧ Balloted (c.put id m []) h' :=
    fun cfg hs ho cand hj => sim.unnoticed hm (hn.of_same cfg hs ho cand hj) (by simp)
  cases hmo with
  | quiet hs =>
    refine hk (RaftNode.core_cfg hs)
      (congrArg RaftNode.ballot (RaftNode.core_state hs)) (congrArg Core.stood hs)
      (fun hr => ⟨?_, RaftNode.core_conf hs, RaftNode.core_votesGranted hs⟩) fun hr => ?_
    · exact (RaftNode.core_role hs).symm.trans hr
    · exact (RaftNode.core_role hs).symm.trans hr
  | say dst body hi =>
    refine sim.unnoticed hm hn fun m hl => ?_
    rw [RaftNode.post, mem_singleton] at hl
    subst hl
    exact BallotMessage.idle hi
  | answerSnapshot | sendAppend | sendSnapshot =>
    refine sim.unnoticed hm hn fun m hl => ?_
    rw [RaftNode.post, mem_singleton] at hl
    subst hl
    trivial
  | persist => exact sim.unnoticed hm hn.persist (by simp)
  | stop e => exact sim.unnoticed hm (hn.stop e) (by simp)
  | retire | canvass => exact hk rfl rfl rfl (by simp) (by simp)
  | newTerm t hq => exact sim.unnoticed hm (hn.newTerm hq) (by simp)
  | stand hvo hy => exact sim.stand hm hn hvo (ha.overlap _ _ hy)
  | grant src req hre hb hw hc hu hp =>
    obtain ⟨m, hse, rfl, body, _⟩ := ha.delivered _ _ hre
    have hsa := sim.sent m hse
    rw [BallotMessage, body] at hsa
    exact sim.grant hm hn (hsa hb (ne_empty_of_contains hw)) hw hu
  | tally src resp hre hb hg _ hc =>
    obtain ⟨m, hse, rfl, body, hz⟩ := ha.delivered _ _ hre
    have hsa := sim.sent m hse
    rw [BallotMessage, body] at hsa
    obtain ⟨cand, dst, hv⟩ := hsa hb hg
    simp only [Envelope.addressedTo, dst, decide_eq_true_eq] at hz
    rw [hc, hz] at hv
    exact sim.unnoticed hm (hn.tally hv) (by simp)
  | win pg cand he _ => exact sim.unnoticed hm (hn.win cand he) (by simp)
  | accept =>
    refine sim.unnoticed hm (hn.of_same rfl rfl rfl (fun hr => ⟨hr, rfl, rfl⟩) fun hr => hr) fun m hl => ?_
    rw [RaftNode.post, mem_singleton] at hl
    subst hl
    trivial
  | reconfigure _ _ _ _ _ hx | adoptLeaving _ _ _ _ _ _ _ _ hx => exact hk rfl rfl rfl (by simp [hx]) fun hr => hr
  | adopt _ _ _ _ _ _ ht =>
    refine hk rfl rfl rfl (fun hr => ?_) fun hr => hr
    have hr : n.role = .candidate := hr
    rcases ht with hx | hf
    · simp [hx] at hr
    · simp [hf] at hr
  | restore _ _ _ _ _ _ _ hf =>
    refine hk rfl rfl rfl (fun hr => ?_) fun hr => hr
    have hr : n.role = .candidate := hr
    simp [hf] at hr
  | _ => exact hk rfl rfl rfl (fun hr => ⟨hr, rfl, rfl⟩) fun hr => hr

lemma BallotAdmissible.put (ha : BallotAdmissible h c id n0 input)
    (hc : BallotLocal id h h') : BallotAdmissible h' (c.put id m out) id n0 input where
  delivered src body hr := by
    obtain ⟨m, he, hb⟩ := ha.delivered src body hr
    exact ⟨m, mem_append_left _ he, hb⟩
  overlap t conf hs b conf' ho hst := ha.overlap t conf hs b conf' ho (hc.stood b t ho ▸ hst)

lemma Balloted.activity (hb : Activity n0 input n m out) :
    ∀ {c : Cluster} {h : RaftBallots}, Balloted c h → id ∈ c.members → BallotSim h id n → BallotAdmissible h c id n0 input →
      ∃ h', h.Extends h' ∧ Balloted (c.put id m out) h' := by
  induction hb with
  | done n =>
    intro c h sim hm hn _
    obtain ⟨h', hc, hs⟩ := sim.unnoticed hm hn (show ∀ m ∈ [], _ by simp)
    exact ⟨h', hc.ext, hs⟩
  | step he _ ih =>
    intro c h sim hm hn ha
    obtain ⟨h', hc, hs⟩ := sim.move hm hn ha he
    have ho := hs.nodes id hm
    rw [put_nodes_self] at ho
    obtain ⟨h'', hl, hf⟩ := ih hs hm ho (ha.put hc)
    exact ⟨h'', hc.ext.trans hl, by rwa [put_put] at hf⟩

lemma BallotSim.restart (hn : BallotSim h id n) (hs : n.Saved RaftNode.ballot)
    (mc : Option StateMachine) (ck : Int) : BallotSim h id (n.restart mc ck) :=
  hn.of_same rfl (RaftNode.restart_saved_ballot hs mc ck).2 rfl
    (by simp [RaftNode.restart, RaftNode.create]) (by simp [RaftNode.restart, RaftNode.create])

end Steps

/-- A node that is about to stand in a term does so under a configuration that
overlaps those under which others have stood in it. -/
def Cluster.StandsOverlap (c : Cluster) (act : Action) : Prop :=
  ∀ id input, c.trigger act = some (id, input) →
    ∀ t conf, standing (c.nodes id) input = some (t, conf) →
      ∀ other ∈ c.members, other ≠ id → ∀ conf', (t, conf') ∈ (c.nodes other).history.stood → conf.Overlaps conf'

/-- `Balloted` between steps, where every node has saved its ballot. -/
structure BallotedRun (members : Finset NodeId) (c : Cluster) (h : RaftBallots) : Prop where
  sim : Balloted c h
  sameMembers : c.members = members
  saved : ∀ id ∈ members, (c.nodes id).Saved RaftNode.ballot

variable {members : Finset NodeId} {act : Action}

lemma BallotedRun.react {id : NodeId} (all : BallotedRun members c h) (hm : id ∈ c.members) (ck : Int)
    (ha : BallotAdmissible h c id (c.nodes id) inp) : ∃ h', h.Extends h' ∧ BallotedRun members (c.react id ck inp) h' := by
  have hn := all.sim.nodes id hm
  have hs := all.saved id (all.sameMembers ▸ hm)
  rw [react_eq_put hm]
  rcases inp.restart_or_running with ⟨mc, rfl⟩ | hr
  · obtain ⟨h', hc, hb⟩ := all.sim.unnoticed hm (hn.restart hs mc ck) (show ∀ m ∈ [], _ by simp)
    refine ⟨h', hc.ext, hb, all.sameMembers, ?_⟩
    have hg := (RaftNode.restart_saved_ballot hs mc ck).1
    exact put_nodes_forall hg all.saved
  obtain ⟨h', hl, hb⟩ := Balloted.activity (RaftNode.react_activity (c.nodes id) ck hr) all.sim hm hn ha
  refine ⟨h', hl, hb, all.sameMembers, ?_⟩
  exact put_nodes_forall (RaftNode.react_saved hs ck hr) all.saved

lemma BallotedRun.step (all : BallotedRun members c h) (ho : c.StandsOverlap act) :
    ∃ h', h.Extends h' ∧ BallotedRun members (c.step act) h' := by
  rw [step_eq]
  split
  · rename_i id input hr
    by_cases hm : id ∈ c.members
    · refine all.react hm act.clock ⟨?_, ?_⟩
      · rintro src body rfl
        exact trigger_delivered hr
      intro t conf ht b conf' ha hs
      by_cases hl : b ∈ c.members
      · exact ho id input hr t conf ht b hl ha conf' (((all.sim.nodes b hl).stood t conf').mpr hs)
      · rw [all.sim.absent b hl t] at hs
        simp at hs
    · refine ⟨h, .refl h, ?_⟩
      simpa [Cluster.react, hm] using all
  · exact ⟨h, .refl h, all⟩

lemma ClusterRun.boot_balloted (run : ClusterRun) : BallotedRun run.members (run.state 0) Ballots.start where
  sim :=
    { coherent := by
        intro a b t k k' _ hs
        simp [Ballots.start] at hs
      nodes := fun id hm =>
        { self := run.named id hm
          unspent := fun _ _ => rfl
          vote := rfl
          stood := fun t conf => by
            refine ⟨fun hl => absurd hl not_mem_nil, fun hs => ?_⟩
            simp [Ballots.start] at hs
          reached := fun t conf hs => by simp [Ballots.start] at hs
          candidate := by
            intro hr
            exact absurd (hr.symm.trans (run.boot_role id)) (by simp)
          leader := by
            intro hr
            exact absurd (hr.symm.trans (run.boot_role id)) (by simp) }
      absent := fun _ _ _ => rfl
      sent := fun _ he => absurd he not_mem_nil }
  sameMembers := rfl
  saved _ _ := ⟨rfl, rfl⟩

/-- Nobody stands in a term under a configuration that does not overlap the others'. -/
def ClusterRun.StandsOverlap (run : ClusterRun) : Prop :=
  ∀ i, (run.state i).StandsOverlap (run.acts i)

/-- Two nodes that are ever leaders in the same term are the same node. -/
def ClusterRun.LeadersUnique (run : ClusterRun) : Prop :=
  ∀ {i j : Nat} {a b : NodeId}, a ∈ run.members → b ∈ run.members →
    (run.node i a).role = .leader → (run.node j b).role = .leader →
      (run.node i a).state.currentTerm = (run.node j b).state.currentTerm → a = b

/-- Election safety in every run, with any membership changes, restarts and
snapshots, in which candidates of one term overlap. -/
theorem election_safety_reconfigured (run : ClusterRun) (overlap : run.StandsOverlap) :
    run.LeadersUnique := by
  intro i j a b ha hm he hl hf
  obtain ⟨hs, hb, hr⟩ := exists_simulation (BallotedRun run.members) Ballots.Extends
    .refl .trans ⟨_, run.boot_balloted⟩ fun i h all => all.step (overlap i)
  have hn : ∀ k {x}, x ∈ run.members → BallotSim (hs k) x (run.node k x) := fun k x hc =>
    (hb k).sim.nodes x ((hb k).sameMembers ▸ hc)
  have left := ((hn i ha).leader he).mono (hr (Nat.le_max_left i j))
  have right := ((hn j hm).leader hl).mono (hr (Nat.le_max_right i j))
  rw [hf] at left
  exact left.unique (hb (max i j)).sim.coherent right

/-- Whoever else has stood in the term did so under the same configuration. -/
def standsAlike (c : Cluster) (act : Action) : Bool :=
  match c.trigger act with
  | none => true
  | some (id, input) =>
    match standing (c.nodes id) input with
    | none => true
    | some (t, conf) =>
      decide (∀ other ∈ c.members, other ≠ id → ∀ p ∈ (c.nodes other).history.stood, p.1 = t → p.2 = conf)

lemma standsOverlap_of_alike (ha : standsAlike c act = true) : c.StandsOverlap act := by
  intro id inp hr t conf hs o hm hb conf' ht
  simp only [standsAlike, hr, hs, decide_eq_true_eq] at ha
  have hc : conf' = conf := ha o hm hb (t, conf') ht rfl
  rw [hc]
  exact conf.overlaps_self

/-- "a" and "b" stand in one term. "a" wins, adds a learner, and "c" takes over. -/
def learnerActs : List Action :=
  [.call "a" 0 .beginElection, .call "b" 0 .beginElection, .deliver 0 "c" 0, .deliver 2 "a" 0,
   .call "a" 0 (.changeConfiguration (.setLearners ["d"])),
   .call "a" 0 (.makeAppendEntries "c"), .deliver 3 "c" 0, .deliver 4 "a" 0,
   .call "c" 0 .beginElection, .deliver 5 "b" 0, .deliver 6 "c" 0]

theorem election_safety_reconfigured_learner :
    (((trioRun {} learnerActs).node 11 "a").conf.learners = ["d"] ∧ ((trioRun {} learnerActs).node 11 "c").role = .leader) ∧
    (trioRun {} learnerActs).LeadersUnique :=
  ⟨by decide +kernel, election_safety_reconfigured _ fun i => standsOverlap_of_alike
    (trioRun_every (fun _ => rfl) (by decide +kernel) i)⟩

/-- "a" enters a joint configuration whose new voters are itself alone, commits it
and the one that leaves it by itself, and is then elected by itself in the term in
which "b" is elected by the other two. -/
def splitActs : List Action :=
  [.call "a" 0 .beginElection, .deliver 0 "c" 0, .deliver 1 "a" 0,
   .call "a" 0 (.changeConfiguration (.enterJoint ["a"])), .call "a" 0 (.appendCommand "x"),
   .call "b" 0 .beginElection, .call "b" 0 .beginElection,
   -- "b" answers the first request of "a" from a later term
   .deliver 0 "b" 0, .deliver 4 "a" 0,
   .call "a" 0 .beginElection,
   .call "b" 0 .beginElection, .deliver 6 "c" 0, .deliver 7 "b" 0]

theorem split_two_leaders : ¬ (trioRun {} splitActs).LeadersUnique := by
  intro hu
  have hb : (((trioRun {} splitActs).node 13 "a").role = .leader ∧
      ((trioRun {} splitActs).node 13 "b").role = .leader) ∧
      ((trioRun {} splitActs).node 13 "a").state.currentTerm =
        ((trioRun {} splitActs).node 13 "b").state.currentTerm := by decide +kernel
  have hs := hu (a := "a") (b := "b") (by decide) (by decide) hb.1.1 hb.1.2 hb.2
  exact absurd hs (by decide)

end Cnetmod.Raft
