import Cnetmod.Raft.Source.SnapshotTransfer
import Cnetmod.Raft.Spec.Runs

/-!
# Credit for a snapshot

The leader takes a successful answer to any chunk as news that the follower has
installed the snapshot it waits for. The answer to a chunk in the middle of a
snapshot is successful too, and the answer does not say which snapshot it is
about. So the credit is right if the answer is to a completed snapshot that
reaches as far as the pending one, and not in general.
-/
namespace Cnetmod.Raft

open RaftNode Option

/-- The snapshot that the follower installs on receiving the chunk, by its last index. -/
def RaftNode.installs (n : RaftNode) (r : Receiver) (opts : TransportOptions) (faults : FileFaults)
    (source : NodeId) (m : SnapshotChunk) : List Nat :=
  match r.materializeSnapshot opts faults source m with
  | (_, m, .complete) =>
    if (n.handleInstallSnapshot m.toInstallSnapshotRequest).2.success then
      [m.metadata.lastIncludedIndex]
    else []
  | _ => []

/-- An answer, the chunk it is for, and what became of that chunk. -/
structure ChunkAnswer where
  chunk : SnapshotChunk
  status : MaterializeStatus
  answer : SnapshotAnswer

/-- Two nodes and the snapshot messages between them, none of which is ever removed.
`installed` is a record of the snapshots the follower has installed. -/
structure Transfer where
  leader : RaftNode
  follower : RaftNode
  receiver : Receiver := {}
  offers : List InstallSnapshotRequest := []
  chunks : List SnapshotChunk := []
  answers : List ChunkAnswer := []
  installed : List Nat := []

/-- `leader` and `follower` are anything else the nodes do. `foreign` is a chunk
from a third node. -/
inductive TransferAction where
  | leader (clock : Int) (input : Input)
  | follower (clock : Int) (input : Input)
  | offer
  | transmit (k : Nat) (chunk : SnapshotChunk)
  | deliver (k : Nat) (clock : Int) (faults : FileFaults)
  | foreign (source : NodeId) (chunk : SnapshotChunk) (clock : Int) (faults : FileFaults)
  | expire (key : String)
  | answer (k : Nat) (clock : Int)

def Input.answersSnapshot (peer : NodeId) : Input → Bool
  | .receive src (.installSnapshotResponse _) => src = peer
  | _ => false

def Input.offersSnapshot : Input → Bool
  | .receive _ (.installSnapshot _) => true
  | _ => false

/-- The sessions are lost with the process, the files are not. -/
def Receiver.after (r : Receiver) : Input → Receiver
  | .restart _ => { files := r.files }
  | _ => r

namespace Transfer

def receive (opts : TransportOptions) (t : Transfer) (source : NodeId) (chunk : SnapshotChunk)
    (clock : Int) (faults : FileFaults) : Transfer × ChunkAnswer :=
  let n := { t.follower with clock := clock }
  let (m, receiver, status, answer) := n.dispatchChunk t.receiver opts faults source chunk
  ({ t with
      follower := m
      receiver := receiver
      installed := t.installed ++ n.installs t.receiver opts faults source chunk },
    { chunk := chunk, status := status, answer := answer })

/-- A snapshot that is offered may be cut into any chunks. -/
def step (opts : TransportOptions) (t : Transfer) : TransferAction → Option Transfer
  | .leader clock input =>
    if input.answersSnapshot t.follower.id then none
    else some { t with leader := (t.leader.react clock input).1 }
  | .follower clock input =>
    if input.offersSnapshot then none
    else some { t with
      follower := (t.follower.react clock input).1
      receiver := t.receiver.after input }
  | .offer =>
    if t.leader.shouldSendSnapshot t.follower.id then
      some { t with
        leader := t.leader.markSnapshotSent t.follower.id
        offers := t.offers ++ [t.leader.makeInstallSnapshot] }
    else none
  | .transmit k chunk =>
    (t.offers[k]?).bind fun offer =>
      if chunk.toInstallSnapshotRequest = { offer with uri := chunk.uri } then
        some { t with chunks := t.chunks ++ [chunk] }
      else none
  | .deliver k clock faults =>
    (t.chunks[k]?).map fun chunk =>
      let (t, answer) := t.receive opts t.leader.id chunk clock faults
      { t with answers := t.answers ++ [answer] }
  | .foreign source chunk clock faults =>
    if source = t.leader.id then none else some (t.receive opts source chunk clock faults).1
  | .expire key => some { t with receiver := t.receiver.cleanupSession key }
  | .answer k clock =>
    (t.answers[k]?).map fun a =>
      { t with leader := { t.leader with clock := clock }.dispatchAnswer t.follower.id a.answer }

/-- How far the leader takes the follower's log to match its own. -/
def matchIndex (t : Transfer) : Nat :=
  ((t.leader.progress.get t.follower.id).map (·.matchIndex)).getD 0

/-- The follower has installed a snapshot that reaches `s`, or its log agrees with the
leader's at `s` or later. -/
def Covered (t : Transfer) (s : Nat) : Prop :=
  ∃ index, s ≤ index ∧ (index ∈ t.installed ∨
    (t.follower.mem.termAt index ≠ 0 ∧ t.follower.mem.termAt index = t.leader.mem.termAt index))

end Transfer

/-- The index a successful answer of the leader's term is credited with, where that
is more than the follower has been credited with before. -/
def RaftNode.snapshotCredit (n : RaftNode) (peer : NodeId) (answer : SnapshotAnswer) : Option Nat :=
  if n.stopped ∨ n.role ≠ .leader ∨ answer.term ≠ n.state.currentTerm ∨ !answer.success then none
  else (n.progress.get peer).bind fun p =>
    if p.matchIndex < p.pendingSnapshot then some p.pendingSnapshot else none

/-- The chunk answered was the last of a snapshot that reaches as far as the pending one. -/
def ChunkAnswer.completes (a : ChunkAnswer) (n : RaftNode) (peer : NodeId) : Bool :=
  a.status = .complete ∧ ∀ index ∈ n.snapshotCredit peer a.answer, index ≤ a.chunk.metadata.lastIncludedIndex

namespace Transfer

/-- The index the answer `k` is credited with. -/
def credit (t : Transfer) (k : Nat) : Option Nat :=
  (t.answers[k]?).bind fun a => t.leader.snapshotCredit t.follower.id a.answer

/-- The answer `k` is to a complete snapshot that reaches as far as the pending one. -/
def answerCompletes (t : Transfer) (k : Nat) : Bool :=
  (t.answers[k]?).all fun a => a.completes t.leader t.follower.id

/-- What the follower is newly credited with is covered. -/
def CreditCovered (t t' : Transfer) : Prop :=
  ∀ s, t.matchIndex < s → s ≤ t'.matchIndex → t.Covered s

end Transfer

section

variable {peer own : NodeId} {credit : Option Nat} {n0 n m : RaftNode}

/-- A node that is not about to become leader, and what it credits a peer with. -/
structure PeerCredit (peer own : NodeId) (credit : Option Nat) (n : RaftNode) : Prop where
  settled : n.role ≠ .candidate
  here : n.id = own
  credit : (n.progress.get peer).map (·.matchIndex) = credit

lemma PeerCredit.of_same (hk : PeerCredit peer own credit n) (cfg : m.cfg = n.cfg)
    (hr : m.role = n.role ∨ m.role ≠ .candidate) (hp : m.progress = n.progress) :
    PeerCredit peer own credit m where
  settled := hr.elim (fun hs => hs ▸ hk.settled) fun ho => ho
  here := (congrArg RaftConfig.id cfg).trans hk.here
  credit := hp ▸ hk.credit

lemma PeerCredit.update (hk : PeerCredit peer own credit n) (ho : peer ≠ own) (change : PeerProgress → PeerProgress) :
    PeerCredit peer own credit { n with progress := n.progress.update own change } where
  settled := hk.settled
  here := hk.here
  credit := by
    rw [ProgressTracker.get_update]
    simpa [ho] using hk.credit

/-- A node does nothing to the credit of a peer but on a message from that peer. The
message here is one from the node itself. -/
lemma PeerCredit.move (ho : peer ≠ own) (hm : Move n0 (.receive own (.appendResponse resp)) n m out)
    (hk : PeerCredit peer own credit n) : PeerCredit peer own credit m := by
  have cfg := hm.cfg
  cases hm with
  | quiet hs => exact hk.of_same cfg (.inl (core_role hs)) (core_progress hs)
  | persist =>
    refine hk.of_same cfg (n.persist_persisted.role.imp_right fun hb => ?_) n.persist_kept.1
    simp [hb]
  | stop e =>
    refine hk.of_same cfg ((n.stop_role e).imp_right fun hb => ?_) (n.stop_kept e).1
    simp [hb]
  | retire | newTerm | canvass => exact hk.of_same cfg (.inr (by simp)) rfl
  | stand he ht => simp [standing] at ht
  | win pg hc => exact absurd hc hk.settled
  | selfProgress matched =>
    rw [setSelfProgress, hk.here]
    exact hk.update ho _
  | probe pg hs => exact ⟨hk.settled, hk.here, (hs peer).trans hk.credit⟩
  | reconfigure change next pg ha => cases ha
  | replicate src resp hr =>
    cases hr
    exact hk.update ho _
  | replicateSnapshot src resp i hr => cases hr
  | restore src req md hr => cases hr
  | _ => exact hk.of_same cfg (.inl rfl) rfl

end

namespace RaftNode

variable (n : RaftNode)

lemma advanceCommitIndex_credit (hl : n.role = .leader) (ho : peer ≠ n.id) :
    (n.advanceCommitIndex.progress.get peer).map (·.matchIndex) = (n.progress.get peer).map (·.matchIndex) := by
  cases hs : n.stopped with
  | true => rw [advanceCommitIndex, if_pos hs]
  | false =>
    have ha : Activity n
        (.receive n.id (.appendResponse { term := n.state.currentTerm, success := true }))
        n n.advanceCommitIndex [] :=
      advanceCommitIndex_activity n hl fun i => by simp [mayApply, hs, hl]
    have hk : PeerCredit peer n.id ((n.progress.get peer).map (·.matchIndex)) n := ⟨by simp [hl], rfl, rfl⟩
    exact (ha.invariant _ (PeerCredit.move ho) hk).credit

lemma refresh_advance_credit (hl : n.role = .leader) (ho : peer ≠ n.id) :
    (n.refreshLeaderQuorum.advanceCommitIndex.progress.get peer).map (·.matchIndex) =
      (n.progress.get peer).map (·.matchIndex) := by
  have hs := n.refreshLeaderQuorum_core
  rw [advanceCommitIndex_credit _ ((core_role hs).trans hl) (by rw [id, core_cfg hs]; exact ho), core_progress hs]

/-- What the peer is credited with after an answer of its. -/
lemma dispatchAnswer_credit (answer : SnapshotAnswer) (ho : peer ≠ n.id) :
    (((n.dispatchAnswer peer answer).progress.get peer).map (·.matchIndex)).getD 0 =
      max (((n.progress.get peer).map (·.matchIndex)).getD 0) ((n.snapshotCredit peer answer).getD 0) := by
  unfold dispatchAnswer snapshotCredit
  split
  next he =>
    have hr : answer.success = false := by simpa using (of_decide_eq_true he).1
    simp [hr]
  unfold handleInstallSnapshotResponse
  split
  next ht => simp [ht]
  split
  next hn =>
    rw [(stepDown_kept _ _).1, if_pos (.inr (.inr (.inl (by omega))))]
    simp
  split
  next hi =>
    rw [if_pos (.inr hi)]
    simp
  next hu _ hc =>
    rw [if_neg (by rw [not_or]; exact ⟨hu, hc⟩)]
    cases hs : n.progress.get peer with
    | none => simp [hs]
    | some p =>
      dsimp only
      split
      next none => simp [hs, none]
      have hl : n.role = .leader := not_not.mp (not_or.mp hc).1
      have ha := refresh_advance_credit { n with progress := n.progress.markReplicated peer p.pendingSnapshot } hl ho
      have hm : ((n.progress.markReplicated peer p.pendingSnapshot).get peer).map (·.matchIndex) =
          some (max p.matchIndex p.pendingSnapshot) := by
        rw [ProgressTracker.markReplicated, ProgressTracker.get_update, hs]
        simp
      rw [ha.trans hm]
      simp only [getD_some, map_some, bind_some]
      split
      · rfl
      simp only [getD_none]
      omega

lemma react_cfg (ck : Int) (inp : Input) : (n.react ck inp).1.cfg = n.cfg :=
  react_invariant (·.cfg = n.cfg) (fun hm hs => hm.cfg.trans hs) (fun _ _ => rfl) rfl

lemma markSnapshotSent_cfg (p : NodeId) : (n.markSnapshotSent p).cfg = n.cfg := by
  unfold markSnapshotSent
  dsimp only
  split <;> rfl

lemma dispatchChunk_cfg (r : Receiver) (opts : TransportOptions) (faults : FileFaults)
    (source : NodeId) (m : SnapshotChunk) : (n.dispatchChunk r opts faults source m).1.cfg = n.cfg := by
  unfold dispatchChunk
  split
  next req _ =>
    have hr : Input.receive source (.installSnapshot req.toInstallSnapshotRequest) = _ := rfl
    exact (handleInstallSnapshot_activity n hr rfl).cfg
  next => rfl

lemma dispatchAnswer_cfg (p : NodeId) (answer : SnapshotAnswer) : (n.dispatchAnswer p answer).cfg = n.cfg := by
  unfold dispatchAnswer
  split
  · rfl
  · have hr : Input.receive p (.installSnapshotResponse answer.toInstallSnapshotResponse) = _ := rfl
    exact (handleInstallSnapshotResponse_activity n hr rfl).cfg

end RaftNode

namespace Receiver

variable (r : Receiver) (faults : FileFaults) (m : SnapshotChunk)

lemma finishSnapshot_metadata (key : String) (st : ReceiveState) :
    (r.finishSnapshot faults key st m).2.1.metadata = m.metadata := by
  unfold finishSnapshot
  split
  · rfl
  split
  · rfl
  dsimp only
  split <;> rfl

lemma receiveChunk_metadata (key : String) (st : ReceiveState) :
    (r.receiveChunk faults key st m).2.1.metadata = m.metadata := by
  unfold receiveChunk
  split
  · split <;> rfl
  split
  · rfl
  split
  · rfl
  split
  · rfl
  split
  · rfl
  split
  · rfl
  · exact finishSnapshot_metadata ..

/-- The snapshot itself is described by all its chunks alike. -/
lemma materializeSnapshot_metadata (opts : TransportOptions) (source : NodeId) :
    (r.materializeSnapshot opts faults source m).2.1.metadata = m.metadata := by
  have hn : (opts.named m).metadata = m.metadata := by
    unfold TransportOptions.named
    split <;> rfl
  unfold materializeSnapshot
  split
  · rfl
  dsimp only
  split
  · exact hn
  split
  · exact hn
  split
  · split
    · exact hn
    split
    · exact hn
    · exact (receiveChunk_metadata ..).trans hn
  split
  · exact hn
  · exact (receiveChunk_metadata ..).trans hn

end Receiver

/-- A completed snapshot that is answered with success has been installed. -/
lemma RaftNode.mem_installs (n : RaftNode) (r : Receiver) (opts : TransportOptions)
    (faults : FileFaults) (source : NodeId) (m : SnapshotChunk) (hc : (n.dispatchChunk r opts faults source m).2.2.1 = .complete)
    (hs : (n.dispatchChunk r opts faults source m).2.2.2.success = true) :
    m.metadata.lastIncludedIndex ∈ n.installs r opts faults source m := by
  have hm := r.materializeSnapshot_metadata faults m opts source
  unfold dispatchChunk at hc hs
  unfold installs
  split at hc
  next ha =>
    rw [ha] at hm hs ⊢
    dsimp only at hm hs ⊢
    rw [if_pos hs, hm]
    exact List.mem_singleton_self _
  next hn _ => exact absurd hc hn

namespace Transfer

/-- The nodes differ, and a success with a complete snapshot tells the truth. -/
structure Truthful (t : Transfer) : Prop where
  apart : t.leader.id ≠ t.follower.id
  installed : ∀ a ∈ t.answers, a.status = .complete → a.answer.success = true → a.chunk.metadata.lastIncludedIndex ∈ t.installed

variable {opts : TransportOptions} {t t' : Transfer}

lemma Truthful.same (ht : t.Truthful) (he : t'.leader.cfg = t.leader.cfg)
    (hf : t'.follower.cfg = t.follower.cfg) (ha : t'.answers = t.answers)
    (hg : t.installed ⊆ t'.installed) : t'.Truthful where
  apart := by
    rw [RaftNode.id, RaftNode.id, he, hf]
    exact ht.apart
  installed a hl hc hs := hg (ht.installed a (ha ▸ hl) hc hs)

lemma Truthful.receive (ht : t.Truthful) (source : NodeId) (chunk : SnapshotChunk)
    (ck : Int) (faults : FileFaults) : (t.receive opts source chunk ck faults).1.Truthful :=
  ht.same rfl (dispatchChunk_cfg ..) rfl (List.subset_append_left _ _)

lemma Truthful.step (ha : t.Truthful) (ht : t.step opts action = some t') : t'.Truthful := by
  cases action with
  | leader ck inp =>
    rw [Transfer.step] at ht
    split at ht
    · cases ht
    · cases ht
      exact ha.same (react_cfg ..) rfl rfl (List.Subset.refl _)
  | follower ck inp =>
    rw [Transfer.step] at ht
    split at ht
    · cases ht
    · cases ht
      exact ha.same rfl (react_cfg ..) rfl (List.Subset.refl _)
  | offer =>
    obtain ⟨-, ⟨⟩⟩ := Option.ite_none_right_eq_some.mp ht
    exact ha.same (markSnapshotSent_cfg ..) rfl rfl (List.Subset.refl _)
  | transmit k chunk =>
    obtain ⟨offer, -, ht⟩ := bind_eq_some_iff.mp ht
    split at ht
    · cases ht
      exact ha.same rfl rfl rfl (List.Subset.refl _)
    · cases ht
  | deliver k ck faults =>
    obtain ⟨chunk, -, rfl⟩ := map_eq_some_iff.mp ht
    have hr : (t.receive opts t.leader.id chunk ck faults).1.Truthful := ha.receive t.leader.id chunk ck faults
    refine ⟨hr.apart, fun a hl hc hs => ?_⟩
    rcases List.mem_append.mp hl with hb | now
    · exact hr.installed a hb hc hs
    rw [List.mem_singleton] at now
    rw [now] at hc hs ⊢
    exact List.mem_append_right _ (mem_installs _ _ _ _ _ _ hc hs)
  | foreign source chunk ck faults =>
    rw [Transfer.step] at ht
    split at ht
    · cases ht
    · cases ht
      exact ha.receive source chunk ck faults
  | expire key =>
    cases ht
    exact ha.same rfl rfl rfl (List.Subset.refl _)
  | answer k ck =>
    obtain ⟨a, -, rfl⟩ := map_eq_some_iff.mp ht
    exact ha.same (dispatchAnswer_cfg ..) rfl rfl (List.Subset.refl _)

lemma truthful_of_reached (ha : n0.leader.id ≠ n0.follower.id)
    (hf : n0.answers = []) (hr : Consensus.Reached (step opts) (fun _ _ => True) n0 t) : t.Truthful := by
  refine hr.invariant Truthful ⟨ha, ?_⟩ fun ht _ hb => ht.step hb
  simp [hf]

variable {p k : Nat}

lemma Covered.mono (hb : s ≤ p) (hc : t.Covered p) : t.Covered s := by
  obtain ⟨i, hr, hh⟩ := hc
  exact ⟨i, hb.trans hr, hh⟩

lemma matchIndex_answer (ha : t.leader.id ≠ t.follower.id) (ht : t.step opts (.answer k ck) = some t') :
    t'.matchIndex = max t.matchIndex ((t.credit k).getD 0) := by
  obtain ⟨a, hl, rfl⟩ := map_eq_some_iff.mp ht
  rw [credit, hl]
  exact dispatchAnswer_credit _ _ ha.symm

/-- Only a successful answer is credited. -/
lemma covered_of_completes (ht : t.Truthful) (ho : t.answerCompletes k = true) (hc : t.credit k = some p) : t.Covered p := by
  obtain ⟨a, hl, hc⟩ := bind_eq_some_iff.mp hc
  rw [answerCompletes, hl] at ho
  obtain ⟨hm, hr⟩ := of_decide_eq_true ho
  have hs : a.answer.success = true := by
    by_contra hf
    rw [snapshotCredit, if_pos (by simp [hf])] at hc
    cases hc
  have hi := ht.installed a (List.mem_of_getElem? hl) hm hs
  exact ⟨_, hr p hc, .inl hi⟩

end Transfer

/-- In every run, an answer to the chunk that completed a snapshot, where that reaches as far as the pending one,
gives the follower credit for nothing but what it has installed. -/
theorem snapshot_credit_covered (opts : TransportOptions) (start t t' : Transfer) (k : Nat)
    (clock : Int) (apart : start.leader.id ≠ start.follower.id) (fresh : start.answers = [])
    (reached : Consensus.Reached (Transfer.step opts) (fun _ _ => True) start t)
    (taken : t.step opts (.answer k clock) = some t') (completes : t.answerCompletes k = true) :
    t.CreditCovered t' := by
  have truthful := Transfer.truthful_of_reached apart fresh reached
  have credited := Transfer.matchIndex_answer truthful.apart taken
  intro s new within
  rw [credited] at within
  cases credit : t.credit k with
  | none =>
    rw [credit, getD_none] at within
    omega
  | some p =>
    rw [credit, getD_some] at within
    have below : s ≤ p := by omega
    exact (Transfer.covered_of_completes truthful completes credit).mono below

def laggingPair : Transfer where
  leader := RaftNode.create (trioConfig {} "a")
    { mem := { state := { currentTerm := 1, commitIndex := 5, lastApplied := 5 }
               snapshot := { lastIncludedIndex := 5, lastIncludedTerm := 1 } } } none 0
  follower := RaftNode.create (trioConfig {} "b") {} none 0

/-- "a" is elected by "b", whose log does not reach the snapshot, and offers it. The
snapshot goes out in these chunks, and each is answered. -/
def chunksAnswered (chunks : List SnapshotChunk) : Option Transfer :=
  Consensus.runChecked (Transfer.step {}) (fun _ _ => True) laggingPair
    ([.leader 0 (.call .beginElection),
      .follower 0 (.receive "a" (.requestVote { term := 2, candidateId := "a", lastLogIndex := 5, lastLogTerm := 1 })),
      .leader 0 (.receive "b" (.voteResponse { term := 2, voteGranted := true })),
      .leader 0 (.receive "b" (.appendResponse { term := 2, matchIndex := 4, conflictIndex := 1 })),
      .offer] ++ chunks.map (.transmit 0 ·) ++ (List.range chunks.length).map (.deliver · 0 {}))

def snapshotOffer : InstallSnapshotRequest :=
  { term := 2, leaderId := "a", metadata := { lastIncludedIndex := 5, lastIncludedTerm := 1 } }

/-- The first byte of two. -/
def halfSnapshot : SnapshotChunk :=
  { toInstallSnapshotRequest := snapshotOffer, snapshotId := "s", totalSize := 2, data := [1]
    chunkCrc32 := crc32Bytes [1], done := false }

/-- The second byte. -/
def restSnapshot : SnapshotChunk :=
  { toInstallSnapshotRequest := snapshotOffer, snapshotId := "s", offset := 1, totalSize := 2, data := [2]
    chunkCrc32 := crc32Bytes [2], fileCrc32 := crc32Bytes [1, 2] }

/-- Two chunks, of which the answer to the first is lost. -/
theorem snapshot_credit_covered_two_chunks :
    ∃ t t', chunksAnswered [halfSnapshot, restSnapshot] = some t ∧ t.answers.length = 2 ∧
      t.step {} (.answer 1 0) = some t' ∧ t.matchIndex = 0 ∧ t'.matchIndex = 5 ∧ t.CreditCovered t' := by
  have ran : (chunksAnswered [halfSnapshot, restSnapshot]).bind (fun t => (t.step {} (.answer 1 0)).map
      fun t' => (t.answerCompletes 1, t.answers.length, t.matchIndex, t'.matchIndex)) = some (true, 2, 0, 5) := by
    decide +kernel
  obtain ⟨t, before, ran⟩ := bind_eq_some_iff.mp ran
  obtain ⟨t', taken, ran⟩ := map_eq_some_iff.mp ran
  simp only [Prod.mk.injEq] at ran
  obtain ⟨completes, two, none, credited⟩ := ran
  exact ⟨t, t', before, two, taken, none, credited, snapshot_credit_covered {} laggingPair t t' 1 0
    (by decide) rfl (Consensus.Reached.start.runChecked _ before) taken completes⟩

/-- The answer to half of the snapshot brings the credit for all of it, to a follower
that has nothing. -/
theorem half_snapshot_credited :
    ∃ t t', chunksAnswered [halfSnapshot] = some t ∧ t.step {} (.answer 0 0) = some t' ∧
      t'.matchIndex = 5 ∧ t.installed = [] ∧ t.follower.mem.entries = [] ∧ ¬ t.CreditCovered t' := by
  have ran : (chunksAnswered [halfSnapshot]).bind (fun t => (t.step {} (.answer 0 0)).map
      fun t' => (t.matchIndex, t'.matchIndex, t.installed, t.follower.mem.entries,
        t.follower.mem.snapshot)) = some (0, 5, [], [], {}) := by decide +kernel
  obtain ⟨t, hb, ran⟩ := bind_eq_some_iff.mp ran
  obtain ⟨t', ht, ran⟩ := map_eq_some_iff.mp ran
  simp only [Prod.mk.injEq] at ran
  obtain ⟨hf, hm, hn, he, none⟩ := ran
  refine ⟨t, t', hb, ht, hm, hn, he, fun hc => ?_⟩
  obtain ⟨i, -, installed | ⟨hh, -⟩⟩ := hc 5 (by omega) (by omega)
  · rw [hn] at installed
    cases installed
  · refine hh ?_
    simp [MemoryStore.termAt, MemoryStore.findOffset, he, none]

end Cnetmod.Raft
