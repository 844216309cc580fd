import Cnetmod.Raft.Spec.Reactions

/-!
# Runs of one node over its store

The store starts empty and its writes fail as a script says. The node takes any
inputs, restarts over the same store among them, so these runs include what a
node does inside any cluster.
-/
namespace Cnetmod.Raft

/-- Where `inputs` has nothing the node rests. -/
structure NodeRun where
  cfg : RaftConfig
  faults : List (Option Thrown)
  machine : Option StateMachine
  clock : Int
  inputs : Nat → Option (Int × Input)

namespace NodeRun

variable (run : NodeRun)

def boot : RaftNode := RaftNode.create run.cfg { faults := run.faults } run.machine run.clock

def step (n : RaftNode) : Option (Int × Input) → RaftNode
  | some (clock, input) => (n.react clock input).1
  | none => n

def state (i : Nat) : RaftNode := Consensus.runState step run.boot run.inputs i

/-- Every step of the run meets the condition in the state it is taken from. -/
def Meets (guard : RaftNode → Input → Bool) : Prop :=
  ∀ i clock input, run.inputs i = some (clock, input) → guard (run.state i) input = true

variable {run} {i : Nat}

lemma state_succ (hg : run.inputs i = some (ck, inp)) : run.state (i + 1) = ((run.state i).react ck inp).1 := by
  simp [state, Consensus.runState, hg, step]

lemma state_rest (hg : run.inputs i = none) : run.state (i + 1) = run.state i := by
  simp [state, Consensus.runState, hg, step]

/-- What reactions keep, a run keeps. -/
lemma invariant_from (kept : RaftNode → Prop) (hh : kept (run.state i))
    (hs : ∀ k clock input, i ≤ k → run.inputs k = some (clock, input) → kept (run.state k) →
      kept ((run.state k).react clock input).1) (hl : i ≤ j) : kept (run.state j) := by
  refine Consensus.runState_invariant_from kept hh (fun k le hb => ?_) hl
  change kept (run.state (k + 1))
  cases hg : run.inputs k with
  | none =>
    rw [state_rest hg]
    exact hb
  | some taken =>
    rw [state_succ hg]
    exact hs k _ _ le hg hb

/-- What every move and every restart keeps, a run keeps. -/
lemma invariant (kept : RaftNode → Prop) (hb : kept run.boot) (hm : ∀ {k ck inp n m out}, run.inputs k = some (ck, inp) →
      kept (run.state k) → Move (run.state k) inp n m out → kept n → kept m)
    (hr : ∀ {n} mc ck, kept n → kept (n.restart mc ck)) (i : Nat) : kept (run.state i) := by
  refine invariant_from (i := 0) kept hb (fun k ck inp _ hg hh => ?_) (Nat.zero_le i)
  exact RaftNode.react_invariant kept (hm hg hh) (fun mc _ => hr mc ck hh) hh

end NodeRun

/-- A run that rests once the listed inputs are through. -/
def scriptRun (cfg : RaftConfig) (faults : List (Option Thrown)) (inputs : List Input) : NodeRun where
  cfg := cfg
  faults := faults
  machine := none
  clock := 0
  inputs := fun i => inputs[i]?.map fun input => (0, input)

/-- Such a run needs checking on the listed inputs only. -/
lemma scriptRun_meets {guard : RaftNode → Input → Bool}
    (hc : ∀ i < inputs.length, ∀ inp ∈ inputs[i]?, guard ((scriptRun cfg faults inputs).state i) inp = true) :
    (scriptRun cfg faults inputs).Meets guard := by
  intro i ck inp hg
  obtain ⟨listed, hf, hs⟩ := Option.map_eq_some_iff.mp hg
  obtain ⟨rfl, rfl⟩ := Prod.mk.inj hs
  exact hc i ((List.getElem?_eq_some_iff.mp hf).1) listed hf

end Cnetmod.Raft
