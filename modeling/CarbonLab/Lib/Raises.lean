import Mathlib

/-!
# Which exceptions a computation may raise

`Raises` says that a computation returns or raises an exception that is allowed.  A
sequence of checks raises what its first failing check raises, so of everything behind a
check only what a passing check leads to matters: `UntilFail` is this for the items of a
list.
-/

namespace CarbonLab

variable {ε α β : Type} {allowed : ε → Prop}

/-- A computation returns, or raises an exception that is allowed. -/
def Raises (allowed : ε → Prop) (outcome : Except ε α) : Prop :=
  ∀ error, outcome = .error error → allowed error

@[simp] theorem raises_ok {value : α} : Raises allowed (Except.ok value) := by
  intro error raised
  cases raised

@[simp] theorem raises_pure {value : α} : Raises allowed (pure value : Except ε α) := raises_ok

@[simp] theorem raises_error {error : ε} :
    Raises allowed (Except.error error : Except ε α) ↔ allowed error := by
  constructor
  · intro raises
    exact raises error rfl
  · intro allows other raised
    cases raised
    exact allows

@[simp] theorem raises_throw {error : ε} :
    Raises allowed (throw error : Except ε α) ↔ allowed error := raises_error

theorem raises_bind {first : Except ε α} {next : α → Except ε β} :
    Raises allowed (first >>= next) ↔
      Raises allowed first ∧ ∀ value, first = .ok value → Raises allowed (next value) := by
  cases first with
  | error error => simp [bind, Except.bind]
  | ok value => simp [bind, Except.bind]

/-- A first part that returns a known value whenever it returns. -/
theorem raises_bind_of_ok {first : Except ε α} {next : α → Except ε β} {value : α}
    (returns : Raises allowed first → first = .ok value) :
    Raises allowed (first >>= next) ↔ Raises allowed first ∧ Raises allowed (next value) := by
  rw [raises_bind]
  constructor
  · rintro ⟨raises, rest⟩
    exact ⟨raises, rest value (returns raises)⟩
  · rintro ⟨raises, rest⟩
    refine ⟨raises, fun other is => ?_⟩
    rw [returns raises] at is
    cases is
    exact rest

theorem raises_ite {condition : Prop} [Decidable condition] {first second : Except ε α} :
    Raises allowed (if condition then first else second) ↔
      (condition → Raises allowed first) ∧ (¬ condition → Raises allowed second) := by
  split
  · next holds => simp [holds]
  · next fails => simp [fails]

/-- Nothing is allowed to a computation that returns. -/
theorem raises_false_iff {outcome : Except ε α} :
    Raises (fun _ => False) outcome ↔ ∃ value, outcome = .ok value := by
  cases outcome with
  | error error => simp
  | ok value => simp

/-! ## Lists -/

/-- The items of a list are safe, one after the other, up to the first that does not pass. -/
def UntilFail (safe passes : α → Prop) : List α → Prop
  | [] => True
  | item :: items => safe item ∧ (passes item → UntilFail safe passes items)

theorem untilFail_of_forall {safe passes : α → Prop} {items : List α}
    (all : ∀ item ∈ items, safe item) : UntilFail safe passes items := by
  induction items with
  | nil => trivial
  | cons item items ih =>
      rw [List.forall_mem_cons] at all
      exact ⟨all.1, fun _ => ih all.2⟩

/-- What passes matters only where it is safe. -/
theorem untilFail_congr {safe passes passes' : α → Prop} {items : List α}
    (same : ∀ item, safe item → (passes item ↔ passes' item)) :
    UntilFail safe passes items ↔ UntilFail safe passes' items := by
  induction items with
  | nil => exact Iff.rfl
  | cons item items ih =>
      rw [UntilFail, UntilFail, ih]
      exact and_congr_right fun here => imp_congr_left (same item here)

theorem raises_forM {check : α → Except ε Unit} {items : List α} :
    Raises allowed (items.forM check) ↔
      UntilFail (fun item => Raises allowed (check item)) (fun item => check item = .ok ()) items := by
  induction items with
  | nil => exact iff_of_true raises_pure trivial
  | cons item items ih =>
      change Raises allowed (check item >>= fun _ => items.forM check) ↔ _
      rw [raises_bind, UntilFail, ← ih]
      exact and_congr_right fun _ => ⟨fun rest passes => rest () passes, fun rest _ passes =>
        rest passes⟩

end CarbonLab
