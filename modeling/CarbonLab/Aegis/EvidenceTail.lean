import CarbonLab.Aegis.Evidence

/-!
# The tail of a ledger

`_tail_record` reads a ledger from its end in blocks of bounded size.  With blocks of any
size the bytes it puts together are those of the last line.
-/

namespace CarbonLab.Aegis

namespace Evidence

/-- The loop of `_tail_record` with blocks of a size: the pieces found so far stand from the end of
the file to its start. -/
def scanBlocks (size : ℕ) (raw : Bytes) : (fuel stop : ℕ) → (pieces : List Bytes) → Option Bytes
  | 0, _, _ => none
  | fuel + 1, stop, pieces =>
      if stop = 0 then some pieces.reverse.flatten
      else
        let start := stop - size
        let block := (raw.take stop).drop start
        if 10 ∈ block then some (pieces ++ [lastLine block]).reverse.flatten
        else scanBlocks size raw fuel start (pieces ++ [block])

/-- The last line of bytes: what stands behind the last line feed, or all of them. -/
structure IsLastLine (bytes line : Bytes) : Prop where
  single : 10 ∉ line
  stands : bytes = line ∨ ∃ before, bytes = before ++ 10 :: line

section

variable {size fuel stop : ℕ} {raw bytes body line : Bytes} {pieces : List Bytes}

theorem lastLine_of_single (single : 10 ∉ line) : lastLine line = line := by
  rw [lastLine, List.takeWhile_eq_self_iff.mpr, List.reverse_reverse]
  intro byte member
  rw [decide_eq_true_eq]
  rintro rfl
  exact single (List.mem_reverse.mp member)

/-- Bytes have one last line. -/
theorem isLastLine_iff : IsLastLine bytes line ↔ line = lastLine bytes := by
  have unique {line : Bytes} (last : IsLastLine bytes line) : line = lastLine bytes := by
    rcases last.stands with rfl | ⟨before, rfl⟩
    · exact (lastLine_of_single last.single).symm
    · have split_ : before ++ 10 :: line = before ++ [10] ++ line := by simp
      have ends : lastLine (before ++ [10]) = [] := by simp [lastLine]
      rw [split_, lastLine_append, if_neg last.single, ends, List.nil_append]
  refine ⟨unique, ?_⟩
  rintro rfl
  have exists_ : ∃ line, IsLastLine bytes line := by
    by_cases member : 10 ∈ bytes
    · obtain ⟨after, before, is, single⟩ := List.eq_append_cons_of_mem (List.mem_reverse.mpr member)
      have whole := congrArg List.reverse is
      rw [List.reverse_reverse, List.reverse_append, List.reverse_cons, List.append_assoc] at whole
      exact ⟨after.reverse, fun inside => single (List.mem_reverse.mp inside), Or.inr ⟨_, whole⟩⟩
    · exact ⟨bytes, member, Or.inl rfl⟩
  obtain ⟨line, last⟩ := exists_
  rw [← unique last]
  exact last

/-- The bytes before a place are those before a block that ends there, and the block. -/
theorem lastLine_take (raw : Bytes) (start stop : ℕ) (before : start ≤ stop) :
    lastLine (raw.take stop) =
      if 10 ∈ (raw.take stop).drop start then lastLine ((raw.take stop).drop start)
      else lastLine (raw.take start) ++ (raw.take stop).drop start := by
  have shorter : (raw.take stop).take start = raw.take start := by
    rw [List.take_take, min_eq_left before]
  rw [← shorter, ← lastLine_append, List.take_append_drop]

/-- What one step of the scan leaves to find: the last line of the bytes before, joined to the pieces. -/
theorem scanBlocks_eq (positive : 0 < size) (enough : stop < fuel) :
    scanBlocks size raw fuel stop pieces =
      some (lastLine (raw.take stop) ++ pieces.reverse.flatten) := by
  induction fuel generalizing stop pieces with
  | zero => omega
  | succ fuel ih =>
      rw [scanBlocks]
      by_cases start : stop = 0
      · rw [if_pos start, start, List.take_zero, lastLine_of_single (by simp), List.nil_append]
      · rw [if_neg start, lastLine_take raw (stop - size) stop (Nat.sub_le _ _)]
        dsimp only
        split
        · rw [List.reverse_append, List.reverse_singleton, List.flatten_append,
            List.flatten_singleton]
        · rw [ih (by omega), List.reverse_append, List.reverse_singleton, List.flatten_append,
            List.flatten_singleton, List.append_assoc]

/-- The scan that the ledger's functions make is the one with blocks of 64 KiB. -/
theorem scanBlocks_scanBack (enough : stop ≤ fuel) :
    scanBlocks (64 * 1024) raw (fuel + 1) stop [] = some (scanBack raw fuel stop []) := by
  have back {found : Bytes} : scanBack raw fuel stop found = lastLine (raw.take stop) ++ found := by
    induction fuel generalizing stop found with
    | zero =>
        rw [scanBack, Nat.le_zero.mp enough, List.take_zero, lastLine_of_single (by simp),
          List.nil_append]
    | succ fuel ih =>
        rw [scanBack]
        by_cases start : stop = 0
        · rw [if_pos start, start, List.take_zero, lastLine_of_single (by simp), List.nil_append]
        · rw [if_neg start, lastLine_take raw (stop - 64 * 1024) stop (Nat.sub_le _ _)]
          dsimp only
          split
          · rfl
          · rw [ih (by omega), List.append_assoc]
  rw [scanBlocks_eq (by decide) (by omega), back]
  rfl

/-- For blocks of any size the scan ends, with the bytes after the last line feed that precedes the
final one, or with all of them. -/
theorem scanBlocks_tail (positive : 0 < size) (enough : body.length < fuel) :
    ∃ found, scanBlocks size (body ++ [10]) fuel body.length [] = some found ∧
      ∀ line, IsLastLine body line ↔ line = found := by
  refine ⟨lastLine body, ?_, fun line => isLastLine_iff⟩
  rw [scanBlocks_eq positive enough]
  simp

theorem scanBlocks_tail_single :
    ∃ found, scanBlocks 1 ([65, 10, 66] ++ [10]) 4 3 [] = some found ∧
      ∀ line, IsLastLine [65, 10, 66] line ↔ line = found :=
  scanBlocks_tail (by decide) (by decide)

end

end Evidence

end CarbonLab.Aegis
