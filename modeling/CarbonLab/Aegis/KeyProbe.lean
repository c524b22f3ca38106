import CarbonLab.Aegis.Host
import CarbonLab.Lib.Bytes
import CarbonLab.Lib.Overlap
import Mathlib.Data.Finset.Basic

/-!
# The probe of a binary

`_binary_key_probe` of `codex_config.py` reads a file in chunks and looks for the names of
configuration keys in it, with the last 256 bytes of what it read before each chunk.
-/

namespace CarbonLab.Aegis

namespace KeyProbe

/-- A string that `encode("ascii")` takes. -/
def IsAscii (key : Text) : Prop := ∀ letter ∈ key, letter.val < 128

instance (key : Text) : Decidable (IsAscii key) := by
  unfold IsAscii
  infer_instance

/-- `key.encode("ascii")` of an ASCII string. -/
def asciiBytes (key : Text) : Bytes := key.map fun letter => UInt8.ofNat letter.val

/-- The keys found after a block. -/
def probeBlock (keys found : Finset Text) (block : Bytes) : Finset Text :=
  found ∪ keys.filter fun key => key ∉ found ∧ asciiBytes key <:+: block

/-- The loop of `_binary_key_probe`; the chunks are what `stream.read` returns. -/
def probeChunks (keys : Finset Text) : (found : Finset Text) → (overlap : Bytes) → List Bytes →
    Finset Text
  | found, _, [] => found
  | found, overlap, chunk :: chunks =>
      if chunk = [] then found
      else
        let block := overlap ++ chunk
        let found := probeBlock keys found block
        if found = keys then found else probeChunks keys found (lastOf 256 block) chunks

/-- `_binary_key_probe` -/
def binaryKeyProbe (keys : Finset Text) (chunks : List Bytes) : Except Raised (Finset Text) :=
  if ∀ key ∈ keys, IsAscii key then .ok (probeChunks keys ∅ [] chunks)
  else .error (valueError "'ascii' codec can't encode characters")

/-- The keys that occur in bytes. -/
def keysIn (keys : Finset Text) (content : Bytes) : Finset Text :=
  keys.filter fun key => asciiBytes key <:+: content

variable {keys : Finset Text} {content chunk : Bytes} {chunks : List Bytes}

/-- The keys in what was read and one more chunk are those found before and in the block. -/
theorem probeBlock_keysIn (short : ∀ key ∈ keys, key.length ≤ 256) :
    probeBlock keys (keysIn keys content) (lastOf 256 content ++ chunk) =
      keysIn keys (content ++ chunk) := by
  ext key
  simp only [probeBlock, keysIn, Finset.mem_union, Finset.mem_filter]
  have across (member : key ∈ keys) : asciiBytes key <:+: content ++ chunk ↔
      asciiBytes key <:+: content ∨ asciiBytes key <:+: lastOf 256 content ++ chunk := by
    apply infix_append_iff
    rw [asciiBytes, List.length_map]
    exact short key member
  constructor
  · rintro (⟨member, early⟩ | ⟨member, _, late⟩)
    · exact ⟨member, (across member).mpr (Or.inl early)⟩
    · exact ⟨member, (across member).mpr (Or.inr late)⟩
  · rintro ⟨member, occurs⟩
    by_cases early : asciiBytes key <:+: content
    · exact Or.inl ⟨member, early⟩
    · have late := ((across member).mp occurs).resolve_left early
      exact Or.inr ⟨member, fun found => early found.2, late⟩

theorem keysIn_subset : keysIn keys content ⊆ keys := Finset.filter_subset _ _

/-- What occurs in the bytes that were read occurs in all of them. -/
theorem keysIn_append : keysIn keys content ⊆ keysIn keys (content ++ chunk) := by
  intro key member
  rw [keysIn, Finset.mem_filter] at member ⊢
  exact ⟨member.1, member.2.trans (List.prefix_append content chunk).isInfix⟩

/-- From what was read before, the loop finds the keys of the whole content. -/
theorem probeChunks_eq (short : ∀ key ∈ keys, key.length ≤ 256) (full : ∀ chunk ∈ chunks, chunk ≠ []) :
    probeChunks keys (keysIn keys content) (lastOf 256 content) chunks =
      keysIn keys (content ++ chunks.flatten) := by
  induction chunks generalizing content with
  | nil => rw [probeChunks, List.flatten_nil, List.append_nil]
  | cons chunk chunks ih =>
      obtain ⟨filled, later⟩ := List.forall_mem_cons.mp full
      rw [probeChunks, if_neg filled, List.flatten_cons, ← List.append_assoc]
      simp only [probeBlock_keysIn short, lastOf_lastOf_append]
      split
      · next all =>
          apply Finset.Subset.antisymm keysIn_append
          rw [all]
          exact keysIn_subset
      · exact ih later

/-- In whatever chunks a file is read, the probe finds the keys that occur in its content. -/
theorem binaryKeyProbe_eq (ascii : ∀ key ∈ keys, IsAscii key) (nonempty : ∀ key ∈ keys, key ≠ [])
    (short : ∀ key ∈ keys, key.length ≤ 256) (full : ∀ chunk ∈ chunks, chunk ≠ []) :
    binaryKeyProbe keys chunks =
      .ok (keys.filter fun key => asciiBytes key <:+: chunks.flatten) := by
  have empty : keysIn keys [] = ∅ := by
    rw [keysIn, Finset.filter_eq_empty_iff]
    intro key member occurs
    apply nonempty key member
    rw [List.infix_nil, asciiBytes, List.map_eq_nil_iff] at occurs
    exact occurs
  have found := @probeChunks_eq keys [] chunks short full
  rw [empty, List.nil_append] at found
  rw [binaryKeyProbe, if_pos ascii]
  exact congrArg Except.ok found

theorem binaryKeyProbe_eq_split :
    binaryKeyProbe {text "ab"} [[97], [98]] =
      .ok (({text "ab"} : Finset Text).filter fun key => asciiBytes key <:+: [[97], [98]].flatten) :=
  binaryKeyProbe_eq (by simp [IsAscii, text]) (by decide) (by decide) (by decide)

end KeyProbe

end CarbonLab.Aegis
