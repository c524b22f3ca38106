import CarbonLab.Lib.Utf8

/-!
# UTF-8 with escapes

`decode("utf-8", "surrogateescape")`: a byte that is part of no character becomes a
surrogate, so that the bytes can be told from the text.
-/

namespace CarbonLab

/-- The first character of bytes, and how many bytes it takes. -/
def firstPoint (bytes : Bytes) : Option (CodePoint × ℕ) :=
  [1, 2, 3, 4].findSome? fun count =>
    match decode false (bytes.take count) with
    | some [point] => some (point, count)
    | _ => none

/-- The surrogate that stands for a byte. -/
def escapeByte (byte : UInt8) : CodePoint := Fin.ofNat _ (0xdc00 + byte.toNat)

/-- `bytes.decode("utf-8", "surrogateescape")` -/
def decodeEscaped : Bytes → Text
  | [] => []
  | byte :: rest =>
      match firstPoint (byte :: rest) with
      | some (point, count) => point :: decodeEscaped (rest.drop (count - 1))
      | none => escapeByte byte :: decodeEscaped rest
termination_by bytes => bytes.length
decreasing_by
  · have shorter : (rest.drop (count - 1)).length ≤ rest.length := by
      rw [List.length_drop]
      omega
    rw [List.length_cons]
    omega
  · rw [List.length_cons]
    omega

/-- `point.encode("utf-8", "surrogateescape")`; other surrogates cannot be encoded. -/
def encodeEscapedPoint (point : CodePoint) : Option Bytes :=
  if 0xdc80 ≤ point.val ∧ point.val < 0xdd00 then some [UInt8.ofNat (point.val - 0xdc00)]
  else if 0xd800 ≤ point.val ∧ point.val < 0xe000 then none
  else some (encodePoint point)

/-- `string.encode("utf-8", "surrogateescape")` -/
def encodeEscaped : Text → Option Bytes
  | [] => some []
  | point :: string => do return (← encodeEscapedPoint point) ++ (← encodeEscaped string)

variable {bytes rest : Bytes} {point : CodePoint} {count : ℕ} {byte : UInt8}

theorem firstPoint_eq_some (found : firstPoint bytes = some (point, count)) :
    1 ≤ count ∧ encodePoint point = bytes.take count ∧
      (point.val < 0xd800 ∨ 0xe000 ≤ point.val) := by
  obtain ⟨length, member, read⟩ := List.exists_of_findSome?_eq_some found
  split at read
  · next is =>
      cases read
      obtain ⟨same, passes⟩ := encode_of_decode is
      rw [encode, List.flatMap_singleton] at same
      refine ⟨?_, same, (passes point (List.mem_singleton.mpr rfl)).resolve_left (by simp)⟩
      simp only [List.mem_cons, List.not_mem_nil, or_false] at member
      omega
  · cases read

/-- A byte that begins no character is no ASCII byte. -/
theorem firstPoint_eq_none (missing : firstPoint (byte :: rest) = none) : 0x80 ≤ byte.toNat := by
  by_contra ascii
  have single := List.findSome?_eq_none_iff.mp missing 1 List.mem_cons_self
  have read : decode false ((byte :: rest).take 1) = some [Fin.ofNat _ byte.toNat] := by
    rw [List.take_succ_cons, List.take_zero, decode, if_pos (by omega)]
    rfl
  rw [read] at single
  cases single

theorem encodeEscapedPoint_of_point (passes : point.val < 0xd800 ∨ 0xe000 ≤ point.val) :
    encodeEscapedPoint point = some (encodePoint point) := by
  rw [encodeEscapedPoint, if_neg (by omega), if_neg (by omega)]

theorem encodeEscapedPoint_escapeByte (high : 0x80 ≤ byte.toNat) :
    encodeEscapedPoint (escapeByte byte) = some [byte] := by
  have bound := byte.toNat_lt
  have value : (escapeByte byte).val = 0xdc00 + byte.toNat := Nat.mod_eq_of_lt (by omega)
  rw [encodeEscapedPoint, value, if_pos (by omega), Nat.add_sub_cancel_left, UInt8.ofNat_toNat]

/-- What was decoded is encoded as it was. -/
theorem encodeEscaped_decodeEscaped (bytes : Bytes) :
    encodeEscaped (decodeEscaped bytes) = some bytes := by
  induction bytes using decodeEscaped.induct with
  | case1 =>
      rw [decodeEscaped]
      rfl
  | case2 byte rest point count found ih =>
      obtain ⟨positive, taken, passes⟩ := firstPoint_eq_some found
      have behind : rest.drop (count - 1) = (byte :: rest).drop count := by
        obtain ⟨before, is⟩ := Nat.exists_eq_add_of_le' positive
        rw [is, Nat.add_sub_cancel, List.drop_succ_cons]
      rw [behind] at ih
      rw [decodeEscaped, found]
      simp only [encodeEscaped, encodeEscapedPoint_of_point passes, behind, ih,
        Option.bind_eq_bind, Option.bind_some, taken]
      exact congrArg some (List.take_append_drop count _)
  | case3 byte rest malformed ih =>
      rw [decodeEscaped, malformed]
      simp only [encodeEscaped, encodeEscapedPoint_escapeByte (firstPoint_eq_none malformed), ih,
        Option.bind_eq_bind, Option.bind_some]
      rfl

end CarbonLab
