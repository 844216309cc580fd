import Mathlib.Data.List.Basic

/-!
# Parsers fed piece by piece

A parser looks at the bytes it has: it needs more, fails, or takes a beginning of
them in a step. When what it has decided once does not change with the bytes that
follow, its input may be cut anywhere.
-/
namespace Cnetmod.Coding

open List

inductive Outcome (σ ε α : Type*) where
  | more
  | fail (state : σ) (error : ε)
  | step (state : σ) (rest : List α)

structure Parser (σ ε α : Type*) where
  next : σ → List α → Outcome σ ε α
  needs : ∀ s, next s [] = .more
  shrinks : ∀ {s s' input rest}, next s input = .step s' rest → rest.length < input.length
  step_stays : ∀ {s s' input rest} (after : List α), next s input = .step s' rest →
    next s (input ++ after) = .step s' (rest ++ after)
  fail_stays : ∀ {s s' input error} (after : List α), next s input = .fail s' error →
    next s (input ++ after) = .fail s' error

namespace Parser

variable {σ ε α : Type*} (p : Parser σ ε α)

/-- Take steps until more input is needed or the parser fails. -/
def drain : Nat → σ → List α → σ × List α × Option ε
  | 0, s, input => (s, input, none)
  | fuel + 1, s, input =>
    match p.next s input with
    | .more => (s, input, none)
    | .fail s error => (s, input, some error)
    | .step s rest => drain fuel s rest

def run (s : σ) (input : List α) : σ × List α × Option ε := p.drain input.length s input

/-- The parser has taken all it can. -/
def Idle (s : σ) (input : List α) : Prop := p.next s input = .more

/-- Feed one piece after another until the parser fails. -/
def feedAll : σ → List α → List (List α) → σ × List α × Option ε
  | s, input, [] => (s, input, none)
  | s, input, piece :: pieces =>
    match p.run s (input ++ piece) with
    | (s, rest, none) => feedAll s rest pieces
    | (s, rest, some error) => (s, rest, some error)

variable {p} {s s' : σ} {input rest : List α}

lemma drain_more (hi : p.next s inp = .more) (k : Nat) : p.drain k s inp = (s, inp, none) := by
  cases k with
  | zero => rfl
  | succ k => simp only [drain, hi]

/-- Fuel beyond the length of the input does not matter. -/
lemma drain_congr {n m : Nat} (hn : inp.length ≤ n) (he : inp.length ≤ m) : p.drain n s inp = p.drain m s inp := by
  induction n generalizing m s inp with
  | zero =>
    obtain rfl := length_eq_zero_iff.mp (Nat.le_zero.mp hn)
    rw [drain_more (p.needs s), drain_more (p.needs s)]
  | succ n ih =>
    cases m with
    | zero =>
      obtain rfl := length_eq_zero_iff.mp (Nat.le_zero.mp he)
      rw [drain_more (p.needs s), drain_more (p.needs s)]
    | succ m =>
      simp only [drain]
      cases next : p.next s inp with
      | more => rfl
      | fail s' e => rfl
      | step s' tl =>
        have := p.shrinks next
        exact ih (by omega) (by omega)

lemma run_more (hi : p.Idle s input) : p.run s input = (s, input, none) := drain_more hi _

lemma run_fail {e : ε} (hf : p.next s inp = .fail s' e) : p.run s inp = (s', inp, some e) := by
  cases inp with
  | nil => rw [p.needs s] at hf; cases hf
  | cons x xs => simp only [run, length_cons, drain, hf]

lemma run_step (hs : p.next s inp = .step s' rest) : p.run s inp = p.run s' rest := by
  have hh := p.shrinks hs
  cases inp with
  | nil => rw [p.needs s] at hs; cases hs
  | cons x xs =>
    simp only [run, length_cons, drain, hs]
    rw [length_cons] at hh
    exact drain_congr (by omega) (Nat.le_refl _)

/-- What is left over is idle, and later bytes go on from there. -/
lemma run_append_ok (after : List α) (done : p.run s inp = (s', rest, none)) :
    p.Idle s' rest ∧ p.run s (inp ++ after) = p.run s' (rest ++ after) := by
  induction hl : inp.length using Nat.strongRecOn generalizing s inp with
  | _ n ih =>
    cases next : p.next s inp with
    | more =>
      rw [run_more next] at done
      cases done
      exact ⟨next, rfl⟩
    | fail t e =>
      rw [run_fail next] at done
      cases done
    | step t left =>
      rw [run_step next] at done
      rw [run_step (p.step_stays after next)]
      exact ih left.length (hl ▸ p.shrinks next) done rfl

/-- A failure does not depend on later bytes. -/
lemma run_append_fail {error : ε} (after : List α) (hf : p.run s inp = (s', rest, some error)) :
    ∃ left, p.run s (inp ++ after) = (s', left, some error) := by
  induction hl : inp.length using Nat.strongRecOn generalizing s inp with
  | _ n ih =>
    cases next : p.next s inp with
    | more =>
      rw [run_more next] at hf
      cases hf
    | fail t e =>
      rw [run_fail next] at hf
      cases hf
      exact ⟨_, run_fail (p.fail_stays after next)⟩
    | step t left =>
      rw [run_step next] at hf
      rw [run_step (p.step_stays after next)]
      exact ih left.length (hl ▸ p.shrinks next) hf rfl

/-- However the input is cut, the state and the verdict are those of one piece; and unless
the parser failed, so is what is left over. -/
lemma feedAll_eq_run (ps : List (List α)) (ha : p.Idle s input) : (p.feedAll s input ps).1 = (p.run s (input ++ ps.flatten)).1 ∧
      (p.feedAll s input ps).2.2 = (p.run s (input ++ ps.flatten)).2.2 ∧
      ((p.feedAll s input ps).2.2 = none → (p.feedAll s input ps).2.1 = (p.run s (input ++ ps.flatten)).2.1) := by
  induction ps generalizing s input with
  | nil =>
    rw [flatten_nil, append_nil, run_more ha]
    exact ⟨rfl, rfl, fun _ => rfl⟩
  | cons piece ps ih =>
    rw [flatten_cons, ← append_assoc]
    cases one : p.run s (input ++ piece) with
    | mk t r =>
      obtain ⟨tl, verdict⟩ := r
      cases verdict with
      | none =>
        obtain ⟨hi, hw⟩ := run_append_ok ps.flatten one
        simp only [feedAll, one, hw]
        exact ih hi
      | some e =>
        obtain ⟨left, hw⟩ := run_append_fail ps.flatten one
        simp only [feedAll, one, hw]
        exact ⟨trivial, trivial, fun none => by cases none⟩

end Parser

end Cnetmod.Coding
