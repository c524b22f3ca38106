import Mathlib

/-!
# Precedence of versions

The precedence rules of semantic versioning.  A version is three numbers and, for a
pre-release, its identifiers; without identifiers it is a release.  The rules are the strict part
of a linear order: that of a key for which Mathlib has the order.
-/

namespace CarbonLab

/-- An identifier of a pre-release. -/
inductive Identifier (Name : Type)
  | numeric (number : ℕ)
  | alphanumeric (name : Name)
  deriving DecidableEq, Repr

/-- A version without its build metadata. -/
structure Version (Name : Type) where
  major : ℕ
  minor : ℕ
  patch : ℕ
  prerelease : List (Identifier Name)
  deriving DecidableEq, Repr

variable {Name : Type} [LinearOrder Name]

/-- Numbers are compared as numbers and stand below names, which are compared letter by
letter. -/
inductive Identifier.Below : Identifier Name → Identifier Name → Prop
  | numbers {first second : ℕ} (less : first < second) : Below (numeric first) (numeric second)
  | kinds (number : ℕ) (name : Name) : Below (numeric number) (alphanumeric name)
  | names {first second : Name} (less : first < second) :
      Below (alphanumeric first) (alphanumeric second)

/-- The first identifiers that differ decide; if there are none, the shorter list is lower. -/
inductive FieldsBelow : List (Identifier Name) → List (Identifier Name) → Prop
  | shorter (field : Identifier Name) (rest : List (Identifier Name)) :
      FieldsBelow [] (field :: rest)
  | differ {first second : Identifier Name} (below : first.Below second)
      (rest others : List (Identifier Name)) : FieldsBelow (first :: rest) (second :: others)
  | equal (field : Identifier Name) {rest others : List (Identifier Name)}
      (below : FieldsBelow rest others) : FieldsBelow (field :: rest) (field :: others)

namespace Version

/-- The three numbers of a version. -/
def core (version : Version Name) : ℕ ×ₗ ℕ ×ₗ ℕ :=
  toLex (version.major, toLex (version.minor, version.patch))

/-- Precedence: the numbers decide from left to right; then a pre-release is below its release, and
two pre-releases are compared by their identifiers. -/
inductive Precedes : Version Name → Version Name → Prop
  | numbers {first second : Version Name} (less : first.core < second.core) :
      Precedes first second
  | release {first second : Version Name} (same : first.core = second.core)
      (pre : first.prerelease ≠ []) (final : second.prerelease = []) : Precedes first second
  | fields {first second : Version Name} (same : first.core = second.core)
      (pre : first.prerelease ≠ []) (below : FieldsBelow first.prerelease second.prerelease) :
      Precedes first second

end Version

/-! ## The order of the rules -/

/-- The place of an identifier. -/
def Identifier.key : Identifier Name → ℕ ⊕ₗ Name
  | numeric number => Sum.inlₗ number
  | alphanumeric name => Sum.inrₗ name

omit [LinearOrder Name] in
theorem Identifier.key_injective :
    Function.Injective (Identifier.key : Identifier Name → ℕ ⊕ₗ Name) := by
  rintro (first | first) (second | second) same <;> cases same <;> rfl

theorem Identifier.below_iff {first second : Identifier Name} :
    first.Below second ↔ first.key < second.key := by
  constructor
  · rintro (less | _ | less)
    · exact Sum.Lex.inl_lt_inl_iff.mpr less
    · exact Sum.Lex.inl_lt_inr _ _
    · exact Sum.Lex.inr_lt_inr_iff.mpr less
  · intro less
    cases first with
    | numeric first =>
        cases second with
        | numeric second => exact .numbers (Sum.Lex.inl_lt_inl_iff.mp less)
        | alphanumeric second => exact .kinds first second
    | alphanumeric first =>
        cases second with
        | numeric second => exact absurd less Sum.Lex.not_inr_lt_inl
        | alphanumeric second => exact .names (Sum.Lex.inr_lt_inr_iff.mp less)

theorem fieldsBelow_iff {first second : List (Identifier Name)} :
    FieldsBelow first second ↔ first.map Identifier.key < second.map Identifier.key := by
  constructor
  · intro below
    induction below with
    | shorter field rest => exact List.nil_lt_cons _ _
    | differ below rest others =>
        exact List.cons_lt_cons_iff.mpr (Or.inl (Identifier.below_iff.mp below))
    | equal field below ih => exact List.cons_lt_cons_iff.mpr (Or.inr ⟨rfl, ih⟩)
  · intro less
    induction first generalizing second with
    | nil =>
        cases second with
        | nil => exact absurd less (lt_irrefl _)
        | cons field rest => exact .shorter field rest
    | cons field rest ih =>
        cases second with
        | nil => exact absurd less (List.not_lt_nil _)
        | cons other others =>
            rcases List.cons_lt_cons_iff.mp less with below | ⟨same, behind⟩
            · exact .differ (Identifier.below_iff.mpr below) rest others
            · cases Identifier.key_injective same
              exact .equal field (ih behind)

namespace Version

/-- The place of a pre-release: the release stands on top. -/
def place : List (Identifier Name) → WithTop (List (ℕ ⊕ₗ Name))
  | [] => ⊤
  | fields => ((fields.map Identifier.key : List (ℕ ⊕ₗ Name)) : WithTop (List (ℕ ⊕ₗ Name)))

/-- The place of a version. -/
def key (version : Version Name) : (ℕ ×ₗ ℕ ×ₗ ℕ) ×ₗ WithTop (List (ℕ ⊕ₗ Name)) :=
  toLex (version.core, place version.prerelease)

omit [LinearOrder Name] in
theorem place_injective :
    Function.Injective (place : List (Identifier Name) → WithTop (List (ℕ ⊕ₗ Name))) := by
  intro first second same
  cases first with
  | nil =>
      cases second with
      | nil => rfl
      | cons => exact absurd same WithTop.top_ne_coe
  | cons =>
      cases second with
      | nil => exact absurd same WithTop.coe_ne_top
      | cons => exact List.map_injective_iff.mpr Identifier.key_injective (WithTop.coe_injective same)

omit [LinearOrder Name] in
theorem key_injective : Function.Injective (key : Version Name → _) := by
  rintro ⟨major, minor, patch, pre⟩ ⟨_, _, _, other⟩ same
  obtain ⟨cores, places⟩ := Prod.mk.inj same
  cases cores
  cases place_injective places
  rfl

theorem place_lt_iff {first second : List (Identifier Name)} :
    place first < place second ↔ first ≠ [] ∧ (second = [] ∨ FieldsBelow first second) := by
  cases first with
  | nil => simp [place]
  | cons field rest =>
      cases second with
      | nil => simp [place]
      | cons other others =>
          rw [fieldsBelow_iff]
          simp [place]

/-- The rules are the order of the keys. -/
theorem precedes_iff {first second : Version Name} :
    Precedes first second ↔ first.key < second.key := by
  rw [key, key, Prod.Lex.toLex_lt_toLex, place_lt_iff]
  constructor
  · rintro (less | ⟨same, pre, final⟩ | ⟨same, pre, below⟩)
    · exact Or.inl less
    · exact Or.inr ⟨same, pre, Or.inl final⟩
    · exact Or.inr ⟨same, pre, Or.inr below⟩
  · rintro (less | ⟨same, pre, final | below⟩)
    · exact .numbers less
    · exact .release same pre final
    · exact .fields same pre below

/-- Versions are ordered by precedence. -/
instance : LinearOrder (Version Name) := LinearOrder.lift' key key_injective

theorem lt_iff_precedes {first second : Version Name} : first < second ↔ Precedes first second :=
  precedes_iff.symm

end Version

end CarbonLab
