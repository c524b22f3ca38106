import Mathlib

/-!
# Frames

Named payloads one behind another: a name, the size of the payload and the payload itself.  A
separator ends the name and the size, and the size says where the payload ends, so a payload may
hold anything.
-/

namespace CarbonLab

variable {α : Type} {separator : α} {size : ℕ → List α}

variable (separator size) in
/-- The frame of a named payload. -/
def frame (entry : List α × List α) : List α :=
  entry.1 ++ separator :: (size entry.2.length ++ separator :: entry.2)

variable (separator size) in
/-- Frames one behind another. -/
def frames (entries : List (List α × List α)) : List α := entries.flatMap (frame separator size)

/-- How a size is written. -/
structure SizeCode (separator : α) (size : ℕ → List α) : Prop where
  injective : Function.Injective size
  no_separator : ∀ count, separator ∉ size count

/-- What stands before the first separator is determined. -/
theorem append_separator_inj {name other rest others : List α} (plain : separator ∉ name)
    (otherPlain : separator ∉ other)
    (same : name ++ separator :: rest = other ++ separator :: others) :
    name = other ∧ rest = others := by
  have shorter {name other rest others : List α} (plain : separator ∉ other) (more : List α)
      (longer : other = name ++ more) (tail : separator :: rest = more ++ separator :: others) :
      name = other ∧ rest = others := by
    cases more with
    | nil => exact ⟨by rw [longer, List.append_nil], (List.cons.inj tail).2⟩
    | cons letter more =>
        refine absurd ?_ plain
        rw [longer, (List.cons.inj tail).1]
        exact List.mem_append_right name List.mem_cons_self
  rcases List.append_eq_append_iff.mp same with ⟨more, longer, tail⟩ | ⟨more, longer, tail⟩
  · exact shorter otherPlain more longer tail
  · obtain ⟨names, rests⟩ := shorter plain more longer tail
    exact ⟨names.symm, rests.symm⟩

/-- The frame in front of anything tells its entry. -/
theorem frame_append_inj (code : SizeCode separator size) {first second : List α × List α}
    {rest others : List α} (plain : separator ∉ first.1) (otherPlain : separator ∉ second.1)
    (same : frame separator size first ++ rest = frame separator size second ++ others) :
    first = second ∧ rest = others := by
  obtain ⟨name, payload⟩ := first
  obtain ⟨other, otherPayload⟩ := second
  simp only [frame, List.append_assoc, List.cons_append] at same
  obtain ⟨names, same⟩ := append_separator_inj plain otherPlain same
  obtain ⟨sizes, same⟩ := append_separator_inj (code.no_separator _) (code.no_separator _) same
  obtain ⟨rfl, rfl⟩ := List.append_inj same (code.injective sizes)
  exact ⟨Prod.ext names rfl, rfl⟩

/-- **Frames are uniquely decoded.** Only the names must be free of the separator. -/
theorem frames_inj (code : SizeCode separator size) {first second : List (List α × List α)}
    (plain : ∀ entry ∈ first, separator ∉ entry.1)
    (otherPlain : ∀ entry ∈ second, separator ∉ entry.1)
    (same : frames separator size first = frames separator size second) : first = second := by
  have filled (entry : List α × List α) (entries : List (List α × List α)) :
      frames separator size (entry :: entries) ≠ [] := by
    simp [frames, frame]
  induction first generalizing second with
  | nil =>
      cases second with
      | nil => rfl
      | cons entry entries => exact absurd same.symm (filled entry entries)
  | cons entry entries ih =>
      cases second with
      | nil => exact absurd same (filled entry entries)
      | cons other others =>
          obtain ⟨entryPlain, entriesPlain⟩ := List.forall_mem_cons.mp plain
          obtain ⟨otherPlain, othersPlain⟩ := List.forall_mem_cons.mp otherPlain
          obtain ⟨rfl, rest⟩ := frame_append_inj code entryPlain otherPlain same
          rw [ih entriesPlain othersPlain rest]

end CarbonLab
