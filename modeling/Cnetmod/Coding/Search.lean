import Mathlib.Data.List.Infix

/-!
# Searching for a word in a text

`find` gives the place where a word first occurs. What it has found stays found
when the text goes on.
-/
namespace Cnetmod.Coding

open List

variable {α : Type*} [DecidableEq α]

/-- The position at which `word` first occurs in a text. -/
def find (word : List α) : List α → Option Nat
  | [] => if word = [] then some 0 else none
  | c :: text => if word <+: c :: text then some 0 else (find word text).map (· + 1)

variable {word t : List α} {pos : Nat}

lemma find_of_begins (hb : word <+: t) : find word t = some 0 := by
  cases t with
  | nil => simp [find, prefix_nil.mp hb]
  | cons c t => rw [find, if_pos hb]

lemma find_cons_of_not_begins {c : α} (ho : ¬ word <+: c :: t) : find word (c :: t) = (find word t).map (· + 1) := by
  rw [find, if_neg ho]

/-- The text around the first occurrence. -/
lemma find_some (hf : find word t = some pos) : ∃ pre after, pre.length = pos ∧ t = pre ++ word ++ after := by
  induction t generalizing pos with
  | nil =>
    rw [find] at hf
    split at hf
    next he =>
      cases hf
      exact ⟨[], [], rfl, by simp [he]⟩
    next => cases hf
  | cons c t ih =>
    by_cases hb : word <+: c :: t
    · rw [find_of_begins hb] at hf
      cases hf
      obtain ⟨after, hs⟩ := hb
      exact ⟨[], after, rfl, hs.symm⟩
    rw [find_cons_of_not_begins hb] at hf
    obtain ⟨q, hi, rfl⟩ := Option.map_eq_some_iff.mp hf
    obtain ⟨pre, after, hl, ha⟩ := ih hi
    exact ⟨c :: pre, after, by rw [length_cons, hl], by rw [ha]; rfl⟩

lemma find_some_le (hf : find word t = some pos) : pos + word.length ≤ t.length := by
  obtain ⟨pre, after, rfl, rfl⟩ := find_some hf
  simp only [length_append]
  omega

lemma find_append (hf : find word t = some pos) (after : List α) : find word (t ++ after) = some pos := by
  induction t generalizing pos with
  | nil =>
    rw [find] at hf
    split at hf
    next he =>
      cases hf
      exact find_of_begins (by simp [he])
    next => cases hf
  | cons c t ih =>
    by_cases hb : word <+: c :: t
    · rw [find_of_begins hb] at hf
      cases hf
      exact find_of_begins (hb.trans (prefix_append _ _))
    rw [find_cons_of_not_begins hb] at hf
    obtain ⟨q, hi, rfl⟩ := Option.map_eq_some_iff.mp hf
    have hc := find_some_le hi
    have ha : ¬ word <+: c :: (t ++ after) := by
      intro hl
      refine hb (prefix_of_prefix_length_le hl (prefix_append (c :: t) after) ?_)
      rw [length_cons]
      omega
    rw [cons_append, find_cons_of_not_begins ha, ih hi, Option.map_some]

end Cnetmod.Coding
