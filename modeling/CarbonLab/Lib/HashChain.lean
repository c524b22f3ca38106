import Mathlib

/-!
# Hash chains

A list of entries in which each one names the mark of the one before it.  Where marks
tell entries apart, the mark of the last entry determines the whole list.
-/

namespace CarbonLab.HashChain

variable {β δ : Type} {own previous : β → δ} {origin : δ} {entries others : List β} {entry : β}

/-- The mark at the end of a list that starts behind a mark. -/
def endMark (own : β → δ) (origin : δ) (entries : List β) : δ :=
  (entries.getLast?.map own).getD origin

/-- Each entry names the mark of the one before it. -/
def Linked (own previous : β → δ) : δ → List β → Prop
  | _, [] => True
  | origin, entry :: entries => previous entry = origin ∧ Linked own previous (own entry) entries

@[simp] theorem endMark_nil : endMark own origin [] = origin := rfl

@[simp] theorem endMark_concat : endMark own origin (entries ++ [entry]) = own entry := by
  simp [endMark]

theorem endMark_cons : endMark own origin (entry :: entries) = endMark own (own entry) entries := by
  rcases List.eq_nil_or_concat entries with rfl | ⟨front, last, rfl⟩
  · rfl
  · rw [List.concat_eq_append, ← List.cons_append, endMark_concat, endMark_concat]

theorem linked_append : Linked own previous origin (entries ++ others) ↔
    Linked own previous origin entries ∧
      Linked own previous (endMark own origin entries) others := by
  induction entries generalizing origin with
  | nil => simp [Linked]
  | cons entry entries ih => rw [List.cons_append, Linked, ih, Linked, endMark_cons, and_assoc]

/-- Two chains with the same end are the same. -/
theorem Linked.unique (chain : Linked own previous origin entries)
    (chain' : Linked own previous origin others)
    (apart : Set.InjOn own {entry | entry ∈ entries ∨ entry ∈ others})
    (fresh : ∀ entry, entry ∈ entries ∨ entry ∈ others → own entry ≠ origin)
    (same : endMark own origin entries = endMark own origin others) : entries = others := by
  induction entries using List.reverseRecOn generalizing others with
  | nil =>
      rcases List.eq_nil_or_concat others with rfl | ⟨front, last, rfl⟩
      · rfl
      · rw [List.concat_eq_append] at same fresh
        rw [endMark_nil, endMark_concat] at same
        exact absurd same.symm (fresh last (Or.inr (by simp)))
  | append_singleton front last ih =>
      rcases List.eq_nil_or_concat others with rfl | ⟨front', last', rfl⟩
      · rw [endMark_nil, endMark_concat] at same
        exact absurd same (fresh last (Or.inl (by simp)))
      · rw [List.concat_eq_append] at chain' apart fresh same ⊢
        rw [endMark_concat, endMark_concat] at same
        obtain rfl : last = last' := apart (Or.inl (by simp)) (Or.inr (by simp)) same
        obtain ⟨chain, before, _⟩ := linked_append.mp chain
        obtain ⟨chain', before', _⟩ := linked_append.mp chain'
        have wider : ∀ entry, entry ∈ front ∨ entry ∈ front' →
            entry ∈ front ++ [last] ∨ entry ∈ front' ++ [last] := fun entry member =>
          member.imp (List.mem_append_left _) (List.mem_append_left _)
        rw [ih chain chain' (apart.mono wider) (fun entry member => fresh entry (wider entry member))
          (before.symm.trans before')]

end CarbonLab.HashChain
