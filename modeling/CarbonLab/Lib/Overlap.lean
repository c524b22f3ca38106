import Mathlib

/-!
# Occurrences across a boundary

What occurs in two lists that are joined occurs in the first of them, or in its end and the
second, when the end is no shorter than the occurrence.
-/

namespace CarbonLab

variable {α : Type*}

/-- `items[-count:]` -/
def lastOf (count : ℕ) (items : List α) : List α := items.drop (items.length - count)

variable {count : ℕ} {first second word : List α}

theorem lastOf_of_le (few : first.length ≤ count) : lastOf count first = first := by
  rw [lastOf, Nat.sub_eq_zero_of_le few, List.drop_zero]

theorem lastOf_append_of_le (full : count ≤ second.length) :
    lastOf count (first ++ second) = lastOf count second := by
  have place : (first ++ second).length - count = first.length + (second.length - count) := by
    rw [List.length_append]
    omega
  rw [lastOf, place, ← List.drop_drop, List.drop_left, lastOf]

theorem take_append_lastOf (count : ℕ) (first : List α) :
    first.take (first.length - count) ++ lastOf count first = first :=
  List.take_append_drop _ _

/-- The end of an end and a list is the end of both lists. -/
theorem lastOf_lastOf_append :
    lastOf count (lastOf count first ++ second) = lastOf count (first ++ second) := by
  by_cases few : first.length ≤ count
  · rw [lastOf_of_le few]
  · have full : count ≤ (lastOf count first ++ second).length := by
      rw [List.length_append, lastOf, List.length_drop]
      omega
    have whole : first.take (first.length - count) ++ (lastOf count first ++ second) =
        first ++ second := by
      rw [← List.append_assoc, take_append_lastOf]
    rw [← whole, lastOf_append_of_le full]

/-- What occurs in two lists occurs in the first, or across the boundary and in the second. -/
theorem infix_append_iff (short : word.length ≤ count) :
    word <:+: first ++ second ↔ word <:+: first ∨ word <:+: lastOf count first ++ second := by
  constructor
  · rintro ⟨before, after, whole⟩
    by_cases inside : before.length + word.length ≤ first.length
    · left
      have cut := congrArg (List.take first.length) whole
      have long : (before ++ word).length ≤ first.length := by
        rw [List.length_append]
        exact inside
      rw [List.take_left, List.take_append, List.take_of_length_le long] at cut
      exact ⟨before, _, cut⟩
    · right
      have cut := congrArg (List.drop (first.length - count)) whole
      rw [List.append_assoc, List.drop_append_of_le_length (by omega),
        List.drop_append_of_le_length (Nat.sub_le _ _), ← List.append_assoc] at cut
      exact ⟨_, after, cut⟩
  · rintro (early | late)
    · exact early.trans (List.prefix_append first second).isInfix
    · have whole : first.take (first.length - count) ++ (lastOf count first ++ second) =
          first ++ second := by
        rw [← List.append_assoc, take_append_lastOf]
      rw [← whole]
      exact late.trans (List.suffix_append _ _).isInfix

end CarbonLab
