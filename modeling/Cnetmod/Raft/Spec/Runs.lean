import Cnetmod.Raft.Spec.Reactions

/-!
# Runs of a cluster

A step of a cluster lets one node react to an input. What reactions keep of a
node, runs keep, and messages stay in the network for good.
-/
namespace Cnetmod.Raft

open Cluster

variable (c : Cluster)

/-- Put a node, and what it sent, into the cluster. -/
def Cluster.put (c : Cluster) (id : NodeId) (n : RaftNode) (out : List Envelope) : Cluster :=
  { c with nodes := Function.update c.nodes id n, sent := c.sent ++ out }

lemma Cluster.put_put (id : NodeId) (n m : RaftNode) (out tl : List Envelope) :
    (c.put id n out).put id m tl = c.put id m (out ++ tl) := by
  simp [put]

lemma Cluster.put_nodes_self (id : NodeId) (n : RaftNode) (out : List Envelope) : (c.put id n out).nodes id = n :=
  Function.update_self _ _ _

variable {id : NodeId}

lemma Cluster.put_nodes_forall {c : Cluster} {members : Finset NodeId} {kept : RaftNode → Prop} (now : kept n)
    (hb : ∀ q ∈ members, kept (c.nodes q)) : ∀ q ∈ members, kept ((c.put id n out).nodes q) := by
  intro q hl
  by_cases hs : q = id
  · subst hs
    rw [put_nodes_self]
    exact now
  · simpa [put, hs] using hb q hl

/-- The node an action reaches and what it makes of it. -/
def Cluster.trigger (c : Cluster) : Action → Option (NodeId × Input)
  | .call id _ call => some (id, .call call)
  | .deliver k dst _ =>
    c.sent[k]?.bind fun m => if m.addressedTo dst then some (dst, .receive m.src m.body) else none
  | .restart id machine _ => some (id, .restart machine)
  | .idle => none

def Action.clock : Action → Int
  | .call _ clock _ => clock
  | .deliver _ _ clock => clock
  | .restart _ _ clock => clock
  | .idle => 0

lemma Cluster.step_eq (act : Action) :
    c.step act = match c.trigger act with
      | some (id, inp) => c.react id act.clock inp
      | none => c := by
  cases act with
  | deliver k dst ck =>
    simp only [step, trigger, Action.clock]
    cases c.sent[k]? with
    | none => rfl
    | some m =>
      simp only [Option.bind_some]
      split <;> rfl
  | _ => rfl

/-- What arrives was sent to the node it reaches. -/
lemma Cluster.trigger_delivered {c : Cluster} (hr : c.trigger act = some (id, .receive src body)) :
    ∃ m ∈ c.sent, m.src = src ∧ m.body = body ∧ m.addressedTo id = true := by
  cases act with
  | deliver k dst ck =>
    simp only [trigger, Option.bind_eq_some_iff] at hr
    obtain ⟨m, hs, hit⟩ := hr
    split at hit
    · rename_i ha
      obtain ⟨rfl, rfl, rfl⟩ := hit
      exact ⟨m, List.mem_of_getElem? hs, rfl, rfl, ha⟩
    · simp at hit
  | _ => simp [trigger] at hr

/-- A condition on the step that `act` is about to take. -/
def Cluster.meets (guard : RaftNode → Input → Bool) (c : Cluster) (act : Action) : Bool :=
  match c.trigger act with
  | some (id, input) => guard (c.nodes id) input
  | none => true

lemma Cluster.react_eq_put {c : Cluster} (hm : id ∈ c.members) :
    c.react id ck inp = c.put id ((c.nodes id).react ck inp).1 ((c.nodes id).react ck inp).2 := by
  simp [react, put, hm]

lemma Cluster.react_members (id : NodeId) (ck : Int) (inp : Input) : (c.react id ck inp).members = c.members := by
  unfold react
  split <;> rfl

lemma Cluster.step_members (act : Action) : (c.step act).members = c.members := by
  rw [step_eq]
  split
  · exact c.react_members _ _ _
  · rfl

/-- Nodes that know their own ids start over empty stores and take any actions. -/
structure ClusterRun where
  members : Finset NodeId
  cfg : NodeId → RaftConfig
  named : ∀ id ∈ members, (cfg id).id = id
  machine : NodeId → Option StateMachine
  clock : Int
  acts : Nat → Action

namespace ClusterRun

variable (run : ClusterRun)

def state (i : Nat) : Cluster :=
  (Cluster.boot run.members run.cfg run.machine run.clock).stateAt run.acts i

def node (i : Nat) (id : NodeId) : RaftNode := (run.state i).nodes id

/-- Every step of the run meets the condition in the state it is taken from. -/
def Meets (guard : RaftNode → Input → Bool) : Prop :=
  ∀ i, (run.state i).meets guard (run.acts i) = true

lemma boot_role (id : NodeId) : (run.node 0 id).role = .follower := rfl

lemma state_members (k : Nat) : (run.state k).members = run.members :=
  Consensus.runState_invariant_from (fun c : Cluster => c.members = run.members) rfl
    (fun k _ hs => ((run.state k).step_members (run.acts k)).trans hs) (Nat.zero_le k)

/-- A step lets one node react, or changes nothing. -/
lemma state_succ (k : Nat) : run.state (k + 1) = run.state k ∨ ∃ id inp clock, id ∈ run.members ∧
      (run.state k).trigger (run.acts k) = some (id, inp) ∧
      run.state (k + 1) = (run.state k).put id ((run.node k id).react clock inp).1 ((run.node k id).react clock inp).2 := by
  have hs : run.state (k + 1) = (run.state k).step (run.acts k) := rfl
  rw [hs, step_eq]
  cases hr : (run.state k).trigger (run.acts k) with
  | none => exact .inl rfl
  | some hit =>
    obtain ⟨id, inp⟩ := hit
    by_cases hm : id ∈ (run.state k).members
    · exact .inr ⟨id, inp, _, run.state_members k ▸ hm, rfl, react_eq_put hm⟩
    · left
      simp [react, hm]

lemma node_succ (k : Nat) (a : NodeId) : run.node (k + 1) a = run.node k a ∨
    ∃ inp ck, a ∈ run.members ∧ (run.state k).trigger (run.acts k) = some (a, inp) ∧
      run.node (k + 1) a = ((run.node k a).react ck inp).1 := by
  rcases run.state_succ k with hsa | ⟨id, inp, ck, hm, hr, hs⟩
  · exact .inl (congrArg (·.nodes a) hsa)
  by_cases own : a = id
  · subst own
    refine .inr ⟨inp, ck, hm, hr, ?_⟩
    rw [node, hs, put_nodes_self]
  left
  rw [node, hs]
  simp [put, node, own]

/-- What reactions keep, a run keeps. -/
lemma node_invariant (kept : RaftNode → Prop) (hh : kept (run.node i a)) (ht : ∀ k inp ck, i ≤ k → a ∈ run.members →
      (run.state k).trigger (run.acts k) = some (a, inp) → kept (run.node k a) →
      kept ((run.node k a).react ck inp).1) (hl : i ≤ j) : kept (run.node j a) := by
  refine Consensus.runState_invariant_from (fun c : Cluster => kept (c.nodes a)) hh ?_ hl
  intro k le hb
  change kept (run.node (k + 1) a)
  rcases run.node_succ k a with hs | ⟨inp, ck, hm, hr, now⟩
  · rw [hs]
    exact hb
  · rw [now]
    exact ht k inp ck le hm hr hb

lemma node_cfg (k : Nat) (a : NodeId) : (run.node k a).cfg = run.cfg a := by
  refine run.node_invariant (fun n => n.cfg = run.cfg a) rfl ?_ (Nat.zero_le k)
  intro k inp ck _ _ _ hs
  exact RaftNode.react_invariant (fun n => n.cfg = run.cfg a) (fun hm hb => hm.cfg.trans hb) (fun _ _ => hs) hs

end ClusterRun

def trioConfig (options : RaftOptions) (id : NodeId) : RaftConfig :=
  { id := id, peers := ["a", "b", "c"].filter (· ≠ id), options := options }

/-- A run of nodes "a", "b" and "c" that ends after the listed actions. -/
def trioRun (options : RaftOptions) (acts : List Action) : ClusterRun where
  members := {"a", "b", "c"}
  cfg := trioConfig options
  named := fun _ _ => rfl
  machine := fun _ => none
  clock := 0
  acts := fun i => acts.getD i .idle

/-- Past its end the run idles, so a condition needs checking on the listed actions. -/
lemma trioRun_every {check : Cluster → Action → Bool} (ha : ∀ c, check c .idle = true)
    (hc : ∀ i < acts.length, check ((trioRun opts acts).state i) (acts.getD i .idle) = true) (i : Nat) :
    check ((trioRun opts acts).state i) ((trioRun opts acts).acts i) = true := by
  by_cases hl : i < acts.length
  · exact hc i hl
  have hi : (trioRun opts acts).acts i = .idle := by
    simp [trioRun, List.getD_eq_getElem?_getD, List.getElem?_eq_none (by omega : acts.length ≤ i)]
  rw [hi]
  exact ha _

end Cnetmod.Raft
