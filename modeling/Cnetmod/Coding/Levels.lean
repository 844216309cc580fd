import Mathlib.Data.List.Basic

/-!
# Patterns of levels

Names are lists of levels. A pattern is such a list too, in which one letter stands
for any single level and another, at its end, for any number of levels.
-/
namespace Cnetmod.Coding

variable {α : Type*} [DecidableEq α] (single multi : α)

def matchLevels : (pattern name : List α) → Bool
  | [], name => name.isEmpty
  | level :: pattern, name =>
    if level = multi then true
    else match name with
      | [] => false
      | here :: name => (level = single || level = here) && matchLevels pattern name

/-- Every name that matches the second pattern matches the first one, level by level: only
`multi` covers `multi`. -/
def coversLevels : (pattern covered : List α) → Bool
  | [], covered => covered.isEmpty
  | level :: pattern, covered =>
    if level = multi then true
    else match covered with
      | [] => false
      | here :: covered => here ≠ multi && (level = single || level = here) && coversLevels pattern covered

/-- The patterns may match a common name. -/
def overlapLevels : (pattern other : List α) → Bool
  | [], other => other.head?.all (· = multi)
  | level :: pattern, other =>
    if level = multi then true
    else match other with
      | [] => false
      | here :: other => here = multi || (level = single || here = single || level = here) && overlapLevels pattern other

variable {single multi} {pattern other name : List α}

lemma matchLevels_of_covers (covers : coversLevels single multi pattern other = true)
    (matched : matchLevels single multi other name = true) : matchLevels single multi pattern name = true := by
  induction pattern generalizing other name with
  | nil =>
    cases other with
    | nil => exact matched
    | cons => cases covers
  | cons level pattern ih =>
    unfold coversLevels at covers
    unfold matchLevels
    split at covers
    next any => exact if_pos any
    next more =>
      rw [if_neg more]
      cases other with
      | nil => cases covers
      | cons here other =>
        simp only [Bool.and_eq_true, decide_eq_true_eq] at covers
        cases name with
        | nil => simp [matchLevels, covers.1.1] at matched
        | cons head name =>
          simp only [matchLevels, if_neg covers.1.1, Bool.and_eq_true, Bool.or_eq_true, decide_eq_true_eq]
            at covers matched ⊢
          refine ⟨?_, ih covers.2 matched.2⟩
          rcases covers.1.2 with one | rfl
          · exact .inl one
          · exact matched.1

lemma overlapLevels_of_match (first : matchLevels single multi pattern name = true)
    (second : matchLevels single multi other name = true) : overlapLevels single multi pattern other = true := by
  induction pattern generalizing other name with
  | nil =>
    rw [matchLevels, List.isEmpty_iff] at first
    cases other with
    | nil => rfl
    | cons here other => simpa [overlapLevels, matchLevels, first] using second
  | cons level pattern ih =>
    unfold matchLevels at first
    unfold overlapLevels
    split at first
    next any => exact if_pos any
    next more =>
      rw [if_neg more]
      cases name with
      | nil => cases first
      | cons head name =>
        cases other with
        | nil => cases second
        | cons here other =>
          rw [matchLevels] at second
          split at second
          next any => simp [any]
          simp only [Bool.and_eq_true, Bool.or_eq_true, decide_eq_true_eq] at first second ⊢
          refine .inr ⟨?_, ih first.2 second.2⟩
          rcases first.1 with one | rfl
          · exact .inl (.inl one)
          · exact second.1.imp_left .inr |>.imp_right Eq.symm

end Cnetmod.Coding
