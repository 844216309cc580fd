import Cnetmod.Raft.Source.Types

/-!
# State-machine caller

`raft_fsm.cpp`. The user's `state_machine` is known only through the callbacks
it receives, so it is represented by the sequence of those calls; two scripts
say which fallible callbacks fail. `fsm_caller` without a machine applies
entries by counting them.
-/
namespace Cnetmod.Raft

inductive MachineCall where
  | onApply (entry : LogEntry)
  | saveSnapshot (metadata : SnapshotMetadata) (uri : String)
  | loadSnapshot (metadata : SnapshotMetadata) (uri : String)
  | onLeaderStart (term : Nat)
  | onLeaderStop (term : Nat)
  deriving DecidableEq

/-- A snapshot callback fails by throwing or by returning an error. -/
inductive CallbackFailure where
  | thrown (thrown : Thrown)
  | returned (error : RaftError)
  deriving DecidableEq

structure StateMachine where
  calls : List MachineCall := []
  applyFaults : List (Option Thrown) := []
  snapshotFaults : List (Option CallbackFailure) := []
  deriving DecidableEq

structure FsmCaller where
  machine : Option StateMachine := none
  lastApplied : Nat := 0

namespace FsmCaller

private def logInconsistent : RaftError :=
  { code := .logInconsistent, message := "committed log entry is not contiguous" }

def applyEntry (f : FsmCaller) (entry : LogEntry) : Except RaftError Nat × FsmCaller :=
  if entry.index ≠ f.lastApplied + 1 then (.error logInconsistent, f)
  else
    match f.machine with
    | none => (.ok entry.index, { f with lastApplied := entry.index })
    | some m =>
      if entry.type = .command ∨ entry.type = .configuration then
        let called :=
          { m with calls := m.calls ++ [.onApply entry], applyFaults := m.applyFaults.drop 1 }
        match m.applyFaults with
        | some thrown :: _ =>
          (.error (thrown.toError .stateMachineError "state machine apply failed"), { f with machine := some called })
        | _ => (.ok entry.index, { machine := some called, lastApplied := entry.index })
      else (.ok entry.index, { f with lastApplied := entry.index })

/-- The shared body of `save_snapshot` and `load_snapshot`. -/
def snapshotCall (f : FsmCaller) (call : MachineCall) (fallback : String) : Except RaftError Unit × FsmCaller :=
  match f.machine with
  | none => (.ok (), f)
  | some m =>
    let called :=
      { m with calls := m.calls ++ [call], snapshotFaults := m.snapshotFaults.drop 1 }
    let f := { f with machine := some called }
    match m.snapshotFaults with
    | some (.thrown thrown) :: _ => (.error (thrown.toError .stateMachineError fallback), f)
    | some (.returned error) :: _ => (.error error, f)
    | _ => (.ok (), f)

def saveSnapshot (f : FsmCaller) (metadata : SnapshotMetadata) (uri : String) : Except RaftError Unit × FsmCaller :=
  f.snapshotCall (.saveSnapshot metadata uri) "state machine snapshot save failed"

def loadSnapshot (f : FsmCaller) (metadata : SnapshotMetadata) (uri : String) : Except RaftError Unit × FsmCaller :=
  { f with lastApplied := max f.lastApplied metadata.lastIncludedIndex }.snapshotCall
    (.loadSnapshot metadata uri) "state machine snapshot load failed"

def notify (f : FsmCaller) (call : MachineCall) : FsmCaller :=
  { f with machine := f.machine.map fun m => { m with calls := m.calls ++ [call] } }

def onLeaderStart (f : FsmCaller) (term : Nat) : FsmCaller := f.notify (.onLeaderStart term)
def onLeaderStop (f : FsmCaller) (term : Nat) : FsmCaller := f.notify (.onLeaderStop term)

end FsmCaller

end Cnetmod.Raft
