import Mathlib

/-!
# Items that are read one by one

A program that reads every item of a list and stops at the first one that it cannot read.
-/

namespace CarbonLab

variable {ε α β : Type}

@[simp] theorem ok_bind {value : α} {next : α → Except ε β} :
    (Except.ok value >>= next) = next value := rfl

theorem bind_eq_ok {first : Except ε α} {next : α → Except ε β} {value : β} :
    (first >>= next) = .ok value ↔ ∃ middle, first = .ok middle ∧ next middle = .ok value := by
  cases first with
  | error error => simp [bind, Except.bind]
  | ok middle => simp [bind, Except.bind]

section

variable {related : α → β → Prop} {items : List α} {others : List β}

theorem exists_of_forall₂ (all : List.Forall₂ related items others) {item : α}
    (member : item ∈ items) : ∃ other ∈ others, related item other := by
  induction all with
  | nil => cases member
  | cons here _ ih =>
      rcases List.mem_cons.mp member with rfl | later
      · exact ⟨_, List.mem_cons_self, here⟩
      · obtain ⟨other, inside, holds⟩ := ih later
        exact ⟨other, List.mem_cons_of_mem _ inside, holds⟩

theorem exists_of_forall₂_right (all : List.Forall₂ related items others) {other : β}
    (member : other ∈ others) : ∃ item ∈ items, related item other :=
  exists_of_forall₂ all.flip member

end

section

variable {read : α → Except ε β} {items : List α} {results : List β}

/-- Items that are all read, one by one. -/
theorem mapM_eq_ok : items.mapM read = .ok results ↔
    List.Forall₂ (fun item result => read item = .ok result) items results := by
  induction items generalizing results with
  | nil =>
      rw [List.mapM_nil, List.forall₂_nil_left_iff]
      exact ⟨fun same => (Except.ok.inj same).symm, fun same => congrArg _ same.symm⟩
  | cons item items ih =>
      rw [List.mapM_cons, List.forall₂_cons_left_iff]
      simp only [bind_eq_ok, ih]
      constructor
      · rintro ⟨result, here, rest, later, same⟩
        exact ⟨result, rest, here, later, (Except.ok.inj same).symm⟩
      · rintro ⟨result, rest, here, later, same⟩
        exact ⟨result, here, rest, later, congrArg _ same.symm⟩

/-- Items of which only one value can be read. -/
theorem eq_map_of_mapM {value : α → β} (only : ∀ item result, read item = .ok result →
    result = value item) (done : items.mapM read = .ok results) : results = items.map value := by
  have related := mapM_eq_ok.mp done
  clear done
  induction related with
  | nil => rfl
  | cons here _ ih => rw [List.map_cons, ← ih, only _ _ here]

/-- What was read was read from every item. -/
theorem exists_mem_of_mapM (done : items.mapM read = .ok results) {item : α}
    (member : item ∈ items) : ∃ result ∈ results, read item = .ok result :=
  exists_of_forall₂ (mapM_eq_ok.mp done) member

/-- The results are what the items are read as. -/
theorem mem_mapM_iff (done : items.mapM read = .ok results) {result : β} :
    result ∈ results ↔ ∃ item ∈ items, read item = .ok result := by
  constructor
  · exact exists_of_forall₂_right (mapM_eq_ok.mp done)
  · rintro ⟨item, member, reads⟩
    obtain ⟨other, inside, same⟩ := exists_mem_of_mapM done member
    rw [same, Except.ok.injEq] at reads
    rwa [← reads]

end

end CarbonLab
