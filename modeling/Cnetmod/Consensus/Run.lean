import Mathlib.Order.Basic
import Mathlib.Tactic.Choose

/-!
# Runs of a deterministic transition system

All choice sits in the actions, so a run is an action sequence. Finite runs are
those whose actions change nothing from some point on.
-/
namespace Cnetmod.Consensus

variable {σ α : Type*}

/-- State after the first `i` actions. -/
def runState (step : σ → α → σ) (start : σ) (acts : Nat → α) : Nat → σ
  | 0 => start
  | i + 1 => step (runState step start acts i) (acts i)

/-- What holds at some point and is kept by every step from there on holds ever after. -/
lemma runState_invariant_from {step : σ → α → σ} {n0 : σ} {acts : Nat → α}
    (inv : σ → Prop) {i : Nat} (hb : inv (runState step n0 acts i))
    (hk : ∀ k, i ≤ k → inv (runState step n0 acts k) → inv (runState step n0 acts (k + 1))) {j : Nat} (hl : i ≤ j) :
    inv (runState step n0 acts j) := by
  induction hl with
  | refl => exact hb
  | step le ih => exact hk _ le ih

/-- A relation to some abstract state that every step can carry on, moving the
abstract state along an order, relates the whole run to one rising sequence. -/
lemma exists_simulation {η : Type*} {step : σ → α → σ} {n0 : σ} {acts : Nat → α}
    (sim : σ → η → Prop) (le : η → η → Prop) (he : ∀ h, le h h) (trans : ∀ {a b c}, le a b → le b c → le a c) (hb : ∃ h, sim n0 h)
    (hk : ∀ i h, sim (runState step n0 acts i) h → ∃ h', le h h' ∧ sim (runState step n0 acts (i + 1)) h') :
    ∃ hs : Nat → η, (∀ i, sim (runState step n0 acts i) (hs i)) ∧ ∀ {i j}, i ≤ j → le (hs i) (hs j) := by
  classical
  obtain ⟨hd, hr⟩ := hb
  have next : ∀ i (now : { h // sim (runState step n0 acts i) h }),
      ∃ later : { h // sim (runState step n0 acts (i + 1)) h }, le now.1 later.1 := by
    intro i now
    obtain ⟨h', ha, hh⟩ := hk i now.1 now.2
    exact ⟨⟨h', hh⟩, ha⟩
  choose advance hrs using next
  let trace : ∀ i, { h // sim (runState step n0 acts i) h } := fun i => Nat.rec ⟨hd, hr⟩ (fun i now => advance i now) i
  refine ⟨fun i => (trace i).1, fun i => (trace i).2, ?_⟩
  intro i j later
  induction later with
  | refl => exact he _
  | step _ ih => exact trans ih (hrs _ (trace _))

/-- The states of a system whose steps may be refused, when every step taken meets `ok`
in the state it is taken from. -/
inductive Reached (step : σ → α → Option σ) (ok : σ → α → Prop) (start : σ) : σ → Prop where
  | start : Reached step ok start start
  | next {s t : σ} {a : α} (before : Reached step ok start s) (meets : ok s a)
    (taken : step s a = some t) : Reached step ok start t

lemma Reached.invariant {step : σ → α → Option σ} {ok : σ → α → Prop} {n0 s : σ} (inv : σ → Prop) (hb : inv n0)
    (hk : ∀ {s a t}, inv s → ok s a → step s a = some t → inv t) (hr : Reached step ok n0 s) : inv s := by
  induction hr with
  | start => exact hb
  | next _ hm ht ih => exact hk ih hm ht

/-- The state after `acts`, if every one of them is taken and meets `ok`. -/
def runChecked (step : σ → α → Option σ) (ok : σ → α → Prop) [∀ s a, Decidable (ok s a)] : σ → List α → Option σ
  | s, [] => some s
  | s, a :: acts => if ok s a then (step s a).bind (runChecked step ok · acts) else none

lemma Reached.runChecked {step : σ → α → Option σ} {ok : σ → α → Prop} [∀ s a, Decidable (ok s a)]
    {n0 s t : σ} (hb : Reached step ok n0 s) (acts : List α)
    (ran : runChecked step ok s acts = some t) : Reached step ok n0 t := by
  induction acts generalizing s with
  | nil =>
    cases ran
    exact hb
  | cons a acts ih =>
    rw [Consensus.runChecked] at ran
    split at ran
    next hm =>
      obtain ⟨u, ht, ran⟩ := Option.bind_eq_some_iff.mp ran
      exact ih (.next hb hm ht) ran
    · cases ran

/-- What each further action keeps under a condition on it and the actions before it holds of a sequence
when every action meets the condition. -/
lemma forall_take_iff (holds : List α → Prop) (meets : List α → α → Prop) (hb : holds [])
    (hs : ∀ before a, holds (before ++ [a]) ↔ holds before ∧ meets before a) (acts : List α) :
    holds acts ↔ ∀ k (hi : k < acts.length), meets (acts.take k) acts[k] := by
  have hu (k : Nat) (hi : k ≤ acts.length) :
      holds (acts.take k) ↔ ∀ j (hl : j < k), meets (acts.take j) (acts.get ⟨j, by omega⟩) := by
    induction k with
    | zero => simpa using hb
    | succ k ih =>
      rw [List.take_succ_eq_append_getElem hi, hs, ih (Nat.le_of_lt hi)]
      constructor
      · rintro ⟨he, ha⟩ j hl
        rcases Nat.lt_succ_iff_lt_or_eq.mp hl with before | rfl
        · exact he j before
        · exact ha
      · exact fun all => ⟨fun j hl => all j (Nat.lt_succ_of_lt hl), all k (Nat.lt_succ_self k)⟩
  have all := hu acts.length (Nat.le_refl _)
  rwa [List.take_length] at all

end Cnetmod.Consensus
