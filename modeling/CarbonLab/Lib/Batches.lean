import Mathlib

/-!
# Batches that are done or left out

A store that batches of changes are carried out on, each of them as a whole or not at all.
A batch that returned was done, one that raised was not, and one that was cut short may have
been either.
-/

namespace CarbonLab

/-- What became of a batch. -/
inductive Fate
  | returned
  | raised
  | cut
  deriving DecidableEq, Repr

variable {β σ : Type} {apply : β → σ → σ} {log : List (Fate × β)} {first last : σ}

variable (apply) in
/-- The stores that a log of batches may lead to. -/
inductive BatchOutcome (first : σ) : List (Fate × β) → σ → Prop
  | start : BatchOutcome first [] first
  | done {log : List (Fate × β)} {last : σ} {fate : Fate} (batch : β) (kept : fate ≠ .raised)
      (outcome : BatchOutcome first log last) :
      BatchOutcome first (log ++ [(fate, batch)]) (apply batch last)
  | skipped {log : List (Fate × β)} {last : σ} {fate : Fate} (batch : β) (left : fate ≠ .returned)
      (outcome : BatchOutcome first log last) : BatchOutcome first (log ++ [(fate, batch)]) last

/-- The batches that returned. -/
def returnedBatches (log : List (Fate × β)) : List β :=
  log.filterMap fun entry => match entry with
    | (.returned, batch) => some batch
    | _ => none

/-- Where no batch was cut short, those that returned were done in their order. -/
theorem BatchOutcome.eq_foldl (outcome : BatchOutcome apply first log last)
    (uncut : ∀ entry ∈ log, entry.1 ≠ .cut) :
    last = (returnedBatches log).foldl (fun store batch => apply batch store) first := by
  induction outcome with
  | start => rfl
  | @done log last fate batch kept outcome ih =>
      obtain ⟨before, here⟩ := List.forall_mem_append.mp uncut
      have fated : fate ≠ .cut := here _ List.mem_cons_self
      cases fate with
      | returned =>
          rw [returnedBatches, List.filterMap_append, List.foldl_append, ih before]
          rfl
      | raised => exact absurd rfl kept
      | cut => exact absurd rfl fated
  | @skipped log last fate batch left outcome ih =>
      obtain ⟨before, here⟩ := List.forall_mem_append.mp uncut
      have fated : fate ≠ .cut := here _ List.mem_cons_self
      cases fate with
      | returned => exact absurd rfl left
      | raised =>
          rw [returnedBatches, List.filterMap_append, List.foldl_append, ih before]
          rfl
      | cut => exact absurd rfl fated

end CarbonLab
