import CarbonLab.Lib.Bytes

/-!
# UTF-8 back and forth

Decoding is the inverse of encoding, for texts without the surrogates that a decoder refuses.
-/

namespace CarbonLab

/-- A code point that the decoder gives back. -/
def Passes (surrogates : Bool) (point : CodePoint) : Prop :=
  surrogates = true ∨ point.val < 0xd800 ∨ 0xe000 ≤ point.val

variable {surrogates : Bool} {point : CodePoint} {string : Text} {bytes rest : Bytes}

theorem continuation?_ofNat {payload : ℕ} (small : payload < 64) :
    continuation? (UInt8.ofNat (0x80 + payload)) = some payload := by
  have value : (UInt8.ofNat (0x80 + payload)).toNat = 0x80 + payload := by
    rw [UInt8.toNat_ofNat']
    omega
  unfold continuation?
  rw [value, if_pos (by omega), Nat.add_sub_cancel_left]

theorem continuation?_eq_some {byte : UInt8} {payload : ℕ} :
    continuation? byte = some payload ↔ payload < 64 ∧ byte = UInt8.ofNat (0x80 + payload) := by
  constructor
  · intro read
    unfold continuation? at read
    split at read
    · next inside =>
        have same := Option.some.inj read
        refine ⟨by omega, ?_⟩
        rw [show 0x80 + payload = byte.toNat by omega, UInt8.ofNat_toNat]
    · cases read
  · rintro ⟨small, rfl⟩
    exact continuation?_ofNat small

theorem decoded?_eq_some {least value : ℕ} :
    decoded? surrogates least value = some point ↔
      least ≤ value ∧ value = point.val ∧ Passes surrogates point := by
  unfold decoded? Passes
  constructor
  · intro read
    split at read
    · next held =>
        have same : (Fin.ofNat 0x110000 value).val = value := Nat.mod_eq_of_lt held.2.1
        cases read
        rw [same]
        exact ⟨held.1, rfl, held.2.2⟩
    · cases read
  · rintro ⟨large, rfl, passes⟩
    rw [if_pos ⟨large, point.isLt, passes⟩]
    exact congrArg some (Fin.ext (Nat.mod_eq_of_lt point.isLt))

/-- The bytes of a code point are read as it. -/
theorem decode_encodePoint (passes : Passes surrogates point) (rest : Bytes) :
    decode surrogates (encodePoint point ++ rest) = (decode surrogates rest).map (point :: ·) := by
  have bound := point.isLt
  have toNat {value : ℕ} (small : value < 256) : (UInt8.ofNat value).toNat = value := by
    rw [UInt8.toNat_ofNat']
    omega
  have read {least value : ℕ} (large : least ≤ point.val) (same : value = point.val) :
      decoded? surrogates least value = some point :=
    decoded?_eq_some.mpr ⟨same ▸ large, same, passes⟩
  unfold encodePoint
  dsimp only
  by_cases one : point.val < 0x80
  · have same : (Fin.ofNat _ point.val : CodePoint) = point := Fin.ext (Nat.mod_eq_of_lt bound)
    rw [if_pos one, List.singleton_append, decode.eq_def]
    simp only [toNat (show point.val < 256 by omega), if_pos one, same]
  · rw [if_neg one]
    by_cases two : point.val < 0x800
    · have low := @continuation?_ofNat (point.val % 64) (by omega)
      rw [if_pos two, List.cons_append, List.cons_append, List.nil_append, decode.eq_def]
      simp only [toNat (show 0xc0 + point.val / 64 < 256 by omega), low, Option.bind_eq_bind,
        Option.bind_some, if_neg (show ¬0xc0 + point.val / 64 < 0x80 by omega),
        if_neg (show ¬0xc0 + point.val / 64 < 0xc0 by omega),
        if_pos (show 0xc0 + point.val / 64 < 0xe0 by omega)]
      rw [read (by omega) (by omega), Option.bind_some]
    · rw [if_neg two]
      by_cases three : point.val < 0x10000
      · have low := @continuation?_ofNat (point.val % 64) (by omega)
        have middle := @continuation?_ofNat (point.val / 64 % 64) (by omega)
        rw [if_pos three]
        simp only [List.cons_append, List.nil_append]
        rw [decode.eq_def]
        simp only [toNat (show 0xe0 + point.val / 4096 < 256 by omega), low, middle,
          Option.bind_eq_bind, Option.bind_some,
          if_neg (show ¬0xe0 + point.val / 4096 < 0x80 by omega),
          if_neg (show ¬0xe0 + point.val / 4096 < 0xc0 by omega),
          if_neg (show ¬0xe0 + point.val / 4096 < 0xe0 by omega),
          if_pos (show 0xe0 + point.val / 4096 < 0xf0 by omega)]
        rw [read (by omega) (by omega), Option.bind_some]
      · have low := @continuation?_ofNat (point.val % 64) (by omega)
        have middle := @continuation?_ofNat (point.val / 64 % 64) (by omega)
        have high := @continuation?_ofNat (point.val / 4096 % 64) (by omega)
        rw [if_neg three]
        simp only [List.cons_append, List.nil_append]
        rw [decode.eq_def]
        simp only [toNat (show 0xf0 + point.val / 262144 < 256 by omega), low, middle, high,
          Option.bind_eq_bind, Option.bind_some,
          if_neg (show ¬0xf0 + point.val / 262144 < 0x80 by omega),
          if_neg (show ¬0xf0 + point.val / 262144 < 0xc0 by omega),
          if_neg (show ¬0xf0 + point.val / 262144 < 0xe0 by omega),
          if_neg (show ¬0xf0 + point.val / 262144 < 0xf0 by omega),
          if_pos (show 0xf0 + point.val / 262144 < 0xf8 by omega)]
        rw [read (by omega) (by omega), Option.bind_some]

/-- What is encoded is decoded again. -/
theorem decode_encode_of_passes (passes : ∀ point ∈ string, Passes surrogates point) :
    decode surrogates (encode string) = some string := by
  induction string with
  | nil => rfl
  | cons point string ih =>
      have first : encode (point :: string) = encodePoint point ++ encode string :=
        List.flatMap_cons
      rw [first, decode_encodePoint (passes point List.mem_cons_self),
        ih fun other member => passes other (List.mem_cons_of_mem _ member), Option.map_some]

/-- The first code point that is read, and the bytes it was read from. -/
theorem decode_eq_some_cases (read : decode surrogates bytes = some string) :
    (bytes = [] ∧ string = []) ∨ ∃ point later rest, Passes surrogates point ∧
      string = point :: later ∧ bytes = encodePoint point ++ rest ∧
        decode surrogates rest = some later := by
  cases bytes with
  | nil =>
      cases read
      exact Or.inl ⟨rfl, rfl⟩
  | cons first rest =>
      have bound := first.toNat_lt
      refine Or.inr ?_
      rw [decode.eq_def] at read
      dsimp only at read
      split at read
      · next one =>
          obtain ⟨later, readLater, rfl⟩ := Option.map_eq_some_iff.mp read
          have value : (Fin.ofNat 0x110000 first.toNat).val = first.toNat :=
            Nat.mod_eq_of_lt (by omega)
          refine ⟨_, later, rest, Or.inr (Or.inl ?_), rfl, ?_, readLater⟩
          · rw [value]
            omega
          · unfold encodePoint
            dsimp only
            rw [value, if_pos one, UInt8.ofNat_toNat]
            rfl
      · split at read
        · cases read
        · next one large =>
            cases rest with
            | nil => cases read
            | cons second rest =>
                simp only [Option.bind_eq_bind, Option.bind_eq_some_iff] at read
                obtain ⟨payload, isSecond, read⟩ := read
                obtain ⟨small, rfl⟩ := continuation?_eq_some.mp isSecond
                split at read
                · next two =>
                    obtain ⟨point, isPoint, read⟩ := Option.bind_eq_some_iff.mp read
                    obtain ⟨least, value, passes⟩ := decoded?_eq_some.mp isPoint
                    obtain ⟨later, readLater, rfl⟩ := Option.map_eq_some_iff.mp read
                    refine ⟨point, later, rest, passes, rfl, ?_, readLater⟩
                    unfold encodePoint
                    dsimp only
                    rw [if_neg (by omega), if_pos (by omega),
                      show 0xc0 + point.val / 64 = first.toNat by omega,
                      show point.val % 64 = payload by omega, UInt8.ofNat_toNat]
                    rfl
                · next two =>
                    cases rest with
                    | nil => cases read
                    | cons third rest =>
                        simp only [Option.bind_eq_some_iff] at read
                        obtain ⟨payload', isThird, read⟩ := read
                        obtain ⟨small', rfl⟩ := continuation?_eq_some.mp isThird
                        split at read
                        · next three =>
                            obtain ⟨point, isPoint, read⟩ := Option.bind_eq_some_iff.mp read
                            obtain ⟨least, value, passes⟩ := decoded?_eq_some.mp isPoint
                            obtain ⟨later, readLater, rfl⟩ := Option.map_eq_some_iff.mp read
                            refine ⟨point, later, rest, passes, rfl, ?_, readLater⟩
                            unfold encodePoint
                            dsimp only
                            rw [if_neg (by omega), if_neg (by omega), if_pos (by omega),
                              show 0xe0 + point.val / 4096 = first.toNat by omega,
                              show point.val / 64 % 64 = payload by omega,
                              show point.val % 64 = payload' by omega, UInt8.ofNat_toNat]
                            rfl
                        · next three =>
                            cases rest with
                            | nil => cases read
                            | cons fourth rest =>
                                simp only [Option.bind_eq_some_iff] at read
                                obtain ⟨payload'', isFourth, point, isPoint, read⟩ := read
                                obtain ⟨small'', rfl⟩ := continuation?_eq_some.mp isFourth
                                obtain ⟨least, value, passes⟩ := decoded?_eq_some.mp isPoint
                                split at read
                                · next four =>
                                    obtain ⟨later, readLater, rfl⟩ :=
                                      Option.map_eq_some_iff.mp read
                                    refine ⟨point, later, rest, passes, rfl, ?_, readLater⟩
                                    unfold encodePoint
                                    dsimp only
                                    rw [if_neg (by omega), if_neg (by omega), if_neg (by omega),
                                      show 0xf0 + point.val / 262144 = first.toNat by omega,
                                      show point.val / 4096 % 64 = payload by omega,
                                      show point.val / 64 % 64 = payload' by omega,
                                      show point.val % 64 = payload'' by omega,
                                      UInt8.ofNat_toNat]
                                    rfl
                                · cases read

/-- What was decoded is encoded as it was, and a decoder that refuses surrogates gives none. -/
theorem encode_of_decode (read : decode surrogates bytes = some string) :
    encode string = bytes ∧ ∀ point ∈ string, Passes surrogates point := by
  induction string generalizing bytes with
  | nil =>
      rcases decode_eq_some_cases read with ⟨rfl, _⟩ | ⟨point, later, rest, _, split, _⟩
      · exact ⟨rfl, by simp⟩
      · cases split
  | cons point string ih =>
      rcases decode_eq_some_cases read with ⟨_, missing⟩ | ⟨first, later, rest, passes, split, rfl, readRest⟩
      · cases missing
      · cases split
        obtain ⟨same, all⟩ := ih readRest
        refine ⟨?_, List.forall_mem_cons.mpr ⟨passes, all⟩⟩
        rw [← same]
        rfl

end CarbonLab
