import Cnetmod.Raft.Guarantees.FixedMembership
import Cnetmod.Raft.Spec.Reads

/-!
# Linearizable reads

`read_index` hands out the leader's commit index, to be used once a quorum has
confirmed the leadership. That index covers everything committed before if the
leader has committed an entry of its own term and the confirmations are not
answers to an earlier read of the same id. The code asks for neither.
-/
namespace Cnetmod.Raft

open Option Consensus RaftNode

lemma node_readsOrdered (run : ClusterRun) (k : Nat) (a : NodeId) : ReadsOrdered (run.node k a).pendingReads :=
  run.node_invariant (fun n => ReadsOrdered n.pendingReads) (i := 0) List.Pairwise.nil
    (fun _ inp ck _ _ _ ho => RaftNode.react_readsOrdered ho ck inp)
    (Nat.zero_le k)

lemma Configuration.hasQuorum_mono {conf : Configuration}
    (sub : acked ⊆ more) (hq : conf.hasQuorum acked = true) : conf.hasQuorum more = true := by
  rw [Configuration.hasQuorum_iff] at hq ⊢
  refine hq.mono fun id hl => ?_
  simp only [decide_eq_true_eq] at hl ⊢
  exact sub hl

/-- The pending read `r`, if there still is one, waits for nodes that were `early`. -/
def ReadHeld (conf : Configuration) (r term index : Nat) (early : NodeId → Prop) (n : RaftNode) : Prop :=
  ∀ x ∈ n.pendingReads, x.id = r → x.index = index ∧ x.term = term ∧
    (∀ q ∈ x.acked, early q) ∧ (x.ready = true → conf.hasQuorum x.acked = true)

section Held

variable {conf : Configuration} {r t idx : Nat} {early : NodeId → Prop} {n0 n m : RaftNode} {inp : Input} {out : List Envelope}

lemma ReadHeld.acknowledgeRead (hh : ReadHeld conf r t idx early n) (hf : early n.id) (hg : n.conf = conf) {id : Nat}
    (ha : id = r → n.state.currentTerm = t → early src) : ReadHeld conf r t idx early (n.acknowledgeRead src id) := by
  intro x hm hn
  obtain ⟨y, old, rfl⟩ := List.mem_map.mp hm
  split at hn
  · rename_i hc
    rw [if_pos hc]
    obtain ⟨hj, hs, hb, hq⟩ := hh y old hn
    refine ⟨hj, hs, ?_, ?_⟩
    · intro q hl
      simp only [Finset.mem_insert] at hl
      rcases hl with rfl | rfl | he
      · exact ha (hc.1.symm.trans hn) (hc.2.symm.trans hs)
      · exact hf
      · exact hb q he
    intro hr
    rw [hg] at hr
    rcases Bool.or_eq_true_iff.mp hr with was | now
    · refine Configuration.hasQuorum_mono ?_ (hq was)
      intro q hl
      simp [hl]
    · exact now
  · rename_i ho
    rw [if_neg ho]
    exact hh y old hn

lemma ReadHeld.move (hh : ReadHeld conf r t idx early n) (hb : Move n0 inp n m out) (hf : early n.id) (hg : n0.conf = conf)
    (ha : ∀ src resp, inp = .receive src (.appendResponse resp) → resp.success = true →
      resp.term = t → r ∈ resp.readAcks → early src) (ho : ∀ req, inp = .call (.readIndex req) → req.id ≠ r) :
    ReadHeld conf r t idx early m := by
  rcases hb.pendingReads with hk |
    ⟨src, resp, id, hr, hsu, hc, hl, hu, rfl⟩ |
    ⟨req, read, has, hn, had⟩
  · exact fun x hm => hh x (hk.subset hm)
  · refine hh.acknowledgeRead hf (hu.trans hg) ?_
    rintro rfl he
    exact ha src resp hr hsu (hc.trans he) hl
  intro x hm hs
  rw [had] at hm
  rcases mem_putRead hm with rfl | old
  · exact absurd (hn.symm.trans hs) (ho req has)
  · exact hh x old hs

lemma ReadHeld.react (he : ReadHeld conf r t idx early n) (hs : early n.id) (hb : n.conf = conf) (ck : Int)
    (ha : ∀ src resp, inp = .receive src (.appendResponse resp) → resp.success = true →
      resp.term = t → r ∈ resp.readAcks → early src) (ho : ∀ req, inp = .call (.readIndex req) → req.id ≠ r) :
    ReadHeld conf r t idx early (n.react ck inp).1 := by
  refine (react_invariant (fun k => k.id = n.id ∧ ReadHeld conf r t idx early k) ?_ ?_ ⟨rfl, he⟩).2
  · rintro k l out hm ⟨own, hh⟩
    exact ⟨(congrArg RaftConfig.id hm.cfg).trans own, hh.move hm (own ▸ hs) hb ha ho⟩
  intro m _
  refine ⟨rfl, fun x hc => ?_⟩
  simp [restart, create] at hc

end Held

/-- `a` accepts the read in step `i` and state `j` returns it. -/
structure FixedRun.ServedRead (run : FixedRun) (a : NodeId) (i j : Nat)
    (request : ReadIndexRequest) (resp : ReadIndexResponse) : Prop where
  member : a ∈ run.members
  asked : ∃ clock, run.acts i = .call a clock (.readIndex request)
  accepted : ∃ answer, ((run.node i a).readIndex request).2 = .ok answer
  later : i < j
  latest : ∀ k, i < k → k < j → ∀ clock request', run.acts k = .call a clock (.readIndex request') → request'.id ≠ request.id
  returned : ((run.node j a).consumeReadIndex request.id).2 = some resp

/-- A read returns an index no smaller than any that was committed when it was made. -/
def FixedRun.LinearizableReads (run : FixedRun) : Prop :=
  ∀ {a : NodeId} {i j : Nat} {request : ReadIndexRequest} {resp : ReadIndexResponse},
    run.ServedRead a i j request resp → ∀ b ∈ run.members, ∀ r ∈ (run.node i b).history.commits, r.index ≤ resp.index

/-- The leader has committed in its term, and nobody has acknowledged a read of
this id to it in this term. -/
def readGuard (c : Cluster) (a : NodeId) (request : ReadIndexRequest) : Bool :=
  let n := c.nodes a
  decide (n.mem.termAt n.state.commitIndex = n.state.currentTerm) &&
    c.sent.all fun m => match m.body with
      | .appendResponse resp => !(m.addressedTo a && resp.success &&
          decide (resp.term = n.state.currentTerm) && decide (request.id ∈ resp.readAcks))
      | _ => true

/-- `readGuard` on the steps that make a read. -/
def readsGuarded (c : Cluster) : Action → Bool
  | .call a _ (.readIndex request) => readGuard c a request
  | _ => true

def FixedRun.ReadsGuarded (run : FixedRun) : Prop :=
  ∀ i, readsGuarded (run.state i) (run.acts i) = true

def FixedRun.Leaseless (run : FixedRun) : Prop :=
  ∀ id ∈ run.members, (run.cfg id).options.leaseRead = false

section Served

variable {run : FixedRun} {hs : Nat → RaftHistory} {i j k : Nat} {a : NodeId}
  {req : ReadIndexRequest} {resp : ReadIndexResponse} {g : Guards}

lemma Simulated.term (ha : ∀ i, Simulated g run.conf run.members (run.state i) (hs i))
    (hm : a ∈ run.members) (i : Nat) : (hs i).term a = (run.node i a).state.currentTerm :=
  ((ha i).node hm).term

/-- Acknowledgements sent after state `i` come from nodes that had not left their term by then. -/
lemma acknowledged_after (ha : ∀ i, Simulated g run.conf run.members (run.state i) (hs i))
    (hc : ∀ {i j}, i ≤ j → (hs i).Extends (hs j)) (hl : i ≤ k) (he : m ∈ (run.state k).sent) {resp : AppendEntriesResponse}
    (hb : m.body = .appendResponse resp) (hu : resp.success = true) : m ∈ (run.state i).sent ∨ (hs i).term m.src ≤ resp.term := by
  induction hl with
  | refl => exact .inl he
  | @step k le ih =>
    rcases run.state_succ k with hsa | ⟨id, inp, ck, hm, hg, ht⟩
    · exact ih (hsa ▸ he)
    rw [ht] at he
    rcases List.mem_append.mp he with old | new
    · exact ih old
    right
    rcases inp.restart_or_running with ⟨mc, rfl⟩ | hru
    · simp [react] at new
    obtain ⟨src, hr⟩ := (run.node k id).react_acknowledgement ck hru new hb hu
    have hf : (run.node k id).id = id := ((ha k).node hm).self
    rw [src, hf]
    calc (hs i).term id ≤ (hs k).term id := (hc le).term id
      _ = (run.node k id).state.currentTerm := Simulated.term ha hm k
      _ ≤ resp.term := hr

/-- The accepted read waits with the leader's commit index, for everyone but itself. -/
lemma readIndex_held {n : RaftNode} {conf : Configuration} (ho : ReadsOrdered n.pendingReads)
    (ha : (n.readIndex req).2 = .ok answer) (hl : n.cfg.options.leaseRead = false) (hs : n.conf = conf) (he : early n.id) :
    ReadHeld conf req.id n.state.currentTerm n.state.commitIndex early (n.react ck (.call (.readIndex req))).1 := by
  have hr : n.stopped = false := by
    cases hst : n.stopped with
    | false => rfl
    | true => simp [readIndex, hst] at ha
  have hb : n.role = .leader := by
    by_contra hot
    simp [readIndex, hr, hot] at ha
  intro x hm hn
  simp only [react, invoke, readIndex, hr, hb, hl,
    Bool.false_and, Bool.or_false, Bool.false_eq_true, if_false, ne_eq, not_true_eq_false]
    at hm
  rw [ho.eq_of_mem_putRead hm hn]
  refine ⟨rfl, rfl, ?_, fun hc => hs ▸ hc⟩
  intro q hf
  rw [Finset.mem_singleton.mp hf]
  exact he

/-- While a read is waiting, its acknowledgements come from nodes that were still in
the leader's term, or an earlier one, when it was made. -/
lemma FixedRun.ServedRead.held (served : run.ServedRead a i j req resp) (leaseless : run.Leaseless) (reads : run.ReadsGuarded)
    (simulated : ∀ i, Simulated g run.conf run.members (run.state i) (hs i)) (rises : ∀ {i j}, i ≤ j → (hs i).Extends (hs j)) :
    ReadHeld run.conf req.id (run.node i a).state.currentTerm (run.node i a).state.commitIndex
      (fun q => (hs i).term q ≤ (run.node i a).state.currentTerm) (run.node j a) := by
  have member := served.member
  have n : ∀ k, NodeSim g run.conf (hs k) a (run.node k a) := fun k => (simulated k).node member
  have named : ∀ k, (run.node k a).id = a := fun k => (n k).self
  have own : (hs i).term a ≤ (run.node i a).state.currentTerm := le_of_eq (n i).term
  obtain ⟨ck, asked⟩ := served.asked
  obtain ⟨answer, accepted⟩ := served.accepted
  have guard := reads i
  simp only [asked, readsGuarded, readGuard, Bool.and_eq_true, List.all_eq_true] at guard
  -- the step that accepts the read
  have hd : ReadHeld run.conf req.id (run.node i a).state.currentTerm
      (run.node i a).state.commitIndex
      (fun q => (hs i).term q ≤ (run.node i a).state.currentTerm) (run.node (i + 1) a) := by
    have now : run.node (i + 1) a = ((run.node i a).react ck (.call (.readIndex req))).1 := by
      have step : run.state (i + 1) = (run.state i).step (run.acts i) := rfl
      rw [ClusterRun.node, step, asked]
      simp [Cluster.step, Cluster.react, run.state_members i, member, ClusterRun.node]
    rw [now]
    refine readIndex_held (node_readsOrdered run.toClusterRun i a) accepted ?_ (n i).sameConf ?_
    · rw [run.node_cfg]
      exact leaseless a member
    · rw [named i]
      exact own
  have span : ∀ k, i + 1 ≤ k → k ≤ j → ReadHeld run.conf req.id
      (run.node i a).state.currentTerm (run.node i a).state.commitIndex
      (fun q => (hs i).term q ≤ (run.node i a).state.currentTerm) (run.node k a) := by
    intro k after
    induction after with
    | refl => exact fun _ => hd
    | @step k le ih =>
      intro within
      have le : i + 1 ≤ k := le
      rcases run.node_succ k a with same | ⟨inp, ck, _, reached, now⟩
      · rw [same]
        exact ih (by omega)
      rw [now]
      refine (ih (by omega)).react ?_ (n k).sameConf ck ?_ ?_
      · rw [named k]
        exact own
      · rintro src resp rfl success cur acks
        obtain ⟨m, sent, rfl, body, addressed⟩ := Cluster.trigger_delivered reached
        rcases acknowledged_after simulated rises (show i ≤ k by omega) sent body success with old | early
        · have none_old := guard.2 m old
          simp [body, addressed, success, cur, acks, ClusterRun.node] at none_old
        · exact cur ▸ early
      rintro request' rfl
      obtain ⟨t, call⟩ : ∃ t, run.acts k = .call a t (.readIndex request') := by
        cases act : run.acts k with
        | call id t made =>
          simp only [act, Cluster.trigger, some.injEq, Prod.mk.injEq, Input.call.injEq] at reached
          exact ⟨t, by rw [reached.1, reached.2]⟩
        | deliver m dst t =>
          simp only [act, Cluster.trigger, bind_eq_some_iff] at reached
          obtain ⟨m, _, hit⟩ := reached
          split at hit <;> simp at hit
        | restart id mc t | idle => simp [act, Cluster.trigger] at reached
      exact served.latest k (by omega) (by omega) t request' call
  exact span j served.later (Nat.le_refl j)

lemma consumeReadIndex_some {n : RaftNode} {id : Nat} (hr : (n.consumeReadIndex id).2 = some resp) :
    ∃ x ∈ n.pendingReads, x.id = id ∧ x.ready = true ∧ resp.index = x.index := by
  unfold consumeReadIndex at hr
  split at hr
  · simp at hr
  rename_i x hf
  split at hr
  · simp at hr
  rename_i hre
  simp only [some.injEq] at hr
  refine ⟨x, List.mem_of_find?_eq_some hf, ?_, by simpa using hre, by rw [← hr]⟩
  simpa using List.find?_some hf

/-- A leader that has committed in its own term is past the log it was elected with. -/
lemma NodeSim.elog_lt_commitIndex {conf : Configuration}
    (inv : LogInv conf.quorums LogEntry.term h) (ho : NodeSim g conf h a n) (hl : n.role = .leader)
    (own : n.mem.termAt n.state.commitIndex = n.state.currentTerm) :
    (h.elog n.state.currentTerm).length < n.state.commitIndex := by
  obtain ⟨he, ha⟩ := ho.leader hl
  have led : h.lead n.state.currentTerm ≠ none := by simp [he]
  have hp := inv.lead_pos led
  have hn : n.state.commitIndex ≠ 0 := by
    intro hz
    rw [hz, MemoryStore.termAt, if_pos rfl] at own
    omega
  obtain ⟨k, i⟩ := Nat.exists_eq_add_one_of_ne_zero hn
  rw [i, ho.plain.termAt k] at own
  rw [i]
  cases hf : n.mem.entries[k]? with
  | none =>
    rw [hf] at own
    simp only [map_none, getD_none] at own
    omega
  | some e =>
    rw [hf] at own
    exact inv.elog_length_lt led (ha ▸ hf) own

/-- Reads are linearizable in every run whose steps meet the conditions. -/
theorem read_index_linearizable (run : FixedRun) (leaseless : run.Leaseless)
    (guarded : run.Meets replicationGuard) (reads : run.ReadsGuarded) :
    run.LinearizableReads := by
  intro a i j req resp hu b hm r ho
  obtain ⟨hs, hc, hk⟩ := run.exists_histories .replicated (fun _ => guarded) False.elim
  obtain ⟨x, hw, hp, hv, ht⟩ := consumeReadIndex_some hu.returned
  obtain ⟨idx, _, early, hq⟩ :=
    hu.held leaseless reads hc hk x hw hp
  rw [ht, idx]
  have sim := (hc i).sim
  have inv := sim.commitInv trivial
  have hn := (hc i).node hu.member
  have hl : (run.node i a).role = .leader := by
    obtain ⟨res, ha⟩ := hu.accepted
    unfold readIndex at ha
    split at ha
    · simp at ha
    split at ha
    · simp at ha
    · rename_i hl
      exact not_not.mp hl
  obtain ⟨hb, _⟩ := hn.leader hl
  have hr := ((hc i).node hm).commits trivial r ho
  -- a quorum was not past the leader's term, so nothing is committed in a later one
  have hq := ((Configuration.hasQuorum_iff _ _).mp (hq hv)).isQuorum (Q := { q | q ∈ x.acked }) fun q ho => by simpa using ho
  have t := hr.committed.term_le inv hq early
  rcases Nat.eq_or_lt_of_le t with hsa | he
  · have own : b = a := by
      have hf := hr.leader
      rw [hsa] at hf
      exact Option.some.inj (hf.symm.trans hb)
    subst own
    exact (hn.ownCommits trivial hl r ho hsa).1
  obtain ⟨ck, hj⟩ := hu.asked
  have hg := reads i
  simp only [hj, readsGuarded, readGuard, Bool.and_eq_true, decide_eq_true_eq] at hg
  have led : (hs i).lead (run.node i a).state.currentTerm ≠ none := by
    rw [ClusterRun.node, hb]
    simp
  exact (hr.committed.le_elog_length inv led he).trans (Nat.le_of_lt (hn.elog_lt_commitIndex sim.logInv hl hg.1))

end Served

/-- "c" takes over, commits its no-op with "b" and then serves a read. -/
def confirmedReadActs : List Action :=
  [.call "c" 0 .beginElection, .deliver 0 "b" 0, .deliver 1 "c" 0,
   .call "c" 0 (.makeAppendEntries "b"), .deliver 2 "b" 0, .deliver 3 "c" 0,
   .call "c" 0 (.readIndex { id := 7 }),
   .call "c" 0 (.makeAppendEntries "b"), .deliver 4 "b" 0, .deliver 5 "c" 0]

def confirmedRead : FixedRun := trio {} confirmedReadActs (by decide)

theorem read_index_linearizable_confirmed :
    ((confirmedRead.node 6 "c").history.commits.map (·.index) = [1] ∧
      ((confirmedRead.node 10 "c").consumeReadIndex 7).2.map (·.index) = some 1) ∧
    confirmedRead.LinearizableReads :=
  ⟨by decide +kernel,
    read_index_linearizable confirmedRead (by unfold FixedRun.Leaseless; decide)
      (trio_meets (by decide +kernel)) (trioRun_every (fun _ => rfl) (by decide +kernel))⟩

/-- "b" commits a command with "c", which takes over and serves a read before its
no-op is committed. -/
def earlyReadActs : List Action :=
  [.call "b" 0 .beginElection, .deliver 0 "c" 0, .deliver 1 "b" 0,
   .call "b" 0 (.appendCommand "x"),
   .call "b" 0 (.makeAppendEntries "c"), .deliver 2 "c" 0, .deliver 3 "b" 0,
   .call "c" 0 .beginElection, .deliver 4 "a" 0, .deliver 5 "c" 0,
   .call "c" 0 (.readIndex { id := 7 }),
   .call "c" 0 (.makeAppendEntries "b"), .deliver 6 "b" 0, .deliver 7 "c" 0]

def earlyRead : FixedRun := trio {} earlyReadActs (by decide)

lemma earlyRead_served : earlyRead.ServedRead "c" 10 14 { id := 7 } { id := 7, term := 2, index := 0, ready := true } where
  member := by decide
  asked := ⟨0, rfl⟩
  accepted := ⟨{ id := 7, term := 2, index := 0, ready := false }, by decide +kernel⟩
  later := by decide
  latest := by
    intro k ha hb ck request' hc
    have hs : k = 11 ∨ k = 12 ∨ k = 13 := by omega
    rcases hs with rfl | rfl | rfl <;> simp [earlyRead, trio, trioRun, earlyReadActs] at hc
  returned := by decide +kernel

theorem earlyRead_not_linearizable : ¬ earlyRead.LinearizableReads := by
  intro hl
  have hc : ∃ r ∈ (earlyRead.node 10 "b").history.commits, r.index = 2 := by decide +kernel
  obtain ⟨r, ha, i⟩ := hc
  have hb := hl earlyRead_served "b" (by decide) r ha
  rw [i] at hb
  exact absurd hb (by decide)

end Cnetmod.Raft
