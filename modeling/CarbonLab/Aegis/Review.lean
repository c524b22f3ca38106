import CarbonLab.Aegis.Assurance

/-!
# Review receipts and gate waivers

`review.py`, and `validate_gate_waiver` of `controls.py`.
-/

namespace CarbonLab.Aegis

/-- `x in container`, whatever the container is. -/
def contains (container x : Json) : Except Raised Bool :=
  match container, x with
  | .arr items, _ => .ok (inList x items)
  | .str string, .str part => .ok (string.tails.any part.isPrefixOf)
  | .str _, _ => .error ⟨.typeError, "'in <string>' requires string as left operand"⟩
  | .obj fields, _ => do
      hash x
      return fields.any fun field => (Json.str field.1).equal x
  | _, _ => .error ⟨.typeError, "argument is not iterable"⟩

namespace Review

/-- `_REQUIRED_CHALLENGE_FIELDS` -/
def requiredChallengeFields : List Text :=
  ["assumptions_tested", "counterexamples_attempted", "boundary_cases", "potential_failures"]

/-- What a review receipt is compared with. -/
structure Reviewed where
  epoch : Json
  diffDigest : Json
  requirementsDigest : Json
  evidenceSetDigest : Json
  tddCycleDigest : Json
  testLawBaselineDigest : Json

/-- A finding that blocks an acceptance. -/
def blocking (finding : Json) : Except Raised Bool :=
  match finding with
  | .obj _ => do
      if ← inSet (finding.get "severity") ["HARD", "CRITICAL", "HIGH"] then
        return !((finding.getD "status" (.str "OPEN")).equal (.str "RESOLVED"))
      else return false
  | _ => .ok false

section

variable (host : Host)

/-- `review_receipt_digest` does not raise. -/
def intact (receipt : Json) : Bool :=
  receipt.obj?.isSome &&
    (receipt.get "receipt_sha256").equal (.str (host.digest (receipt.erase "receipt_sha256")))

/-- `validate_review_receipt` -/
def validateReviewReceipt (receipt : Json) (expected : Reviewed) : Except Raised Bool := do
  if intact host receipt && (receipt.get "schema").equal (.int 1) &&
      (receipt.get "outcome").equal (.str "ACCEPTED") &&
      requiredChallengeFields.all (fun field =>
        (receipt.get field).arr?.isSome && (receipt.get field).truthy) then
    if ← some_ blocking (← iterate (receipt.getD "findings" (.arr []))) then return false
    else
      return (receipt.get "epoch").equal expected.epoch &&
        (receipt.get "diff_digest").equal expected.diffDigest &&
        (receipt.get "requirements_digest").equal expected.requirementsDigest &&
        (receipt.get "evidence_set_digest").equal expected.evidenceSetDigest &&
        (receipt.get "tdd_cycle_digest").equal expected.tddCycleDigest &&
        (receipt.get "test_law_baseline_digest").equal expected.testLawBaselineDigest
  else return false

end

end Review

/-! ## Waivers -/

/-- `GATE_SEVERITIES` -/
def gateSeverities : List Text := ["HARD", "REQUIRED", "ADVISORY"]

/-- The record that a waiver rests on. -/
def isWaiverRecord (record : Json) (evidenceId : Text) (task : Json) (epoch : ℤ) : Bool :=
  record.obj?.isSome && (record.get "schema").equal (.int 2) &&
    (record.get "id").equal (.str evidenceId) && (record.get "task_id").equal task &&
    (record.get "change_epoch").equal (.int epoch) &&
    (record.get "provenance").equal (.str "external-source")

/-- `validate_gate_waiver`, with the value of every key of `evidence_records`. -/
def gateWaiver (gate : Json) (recordOf : Text → Json) (task : Json) (epoch : ℤ) :
    Except Raised Bool := do
  if gate.obj?.isSome && (gate.get "status").equal (.str "WAIVED") &&
      (gate.get "gate_severity").equal (.str "REQUIRED") && isText (gate.get "waiver_reason") then
    match (gate.get "waiver_evidence").str? with
    | none => return false
    | some evidenceId =>
        let record := recordOf evidenceId
        let details := record.get "details"
        if startsWith "E-" evidenceId && isWaiverRecord record evidenceId task epoch &&
            details.obj?.isSome then
          if ← contains (details.getD "gate_ids" (.arr [])) (gate.get "id") then
            let authority := details.get "waiver_authority"
            if authority.obj?.isSome then
              return (← inSet (authority.get "kind") ["user", "host"]) &&
                authority.get "trusted" = .bool true && isText (authority.get "identity")
            else return false
          else return false
        else return false
  else return false

/-- `validate_gate_waiver`, with the verified records. -/
def validateGateWaiver (gate : Json) (records : List Json) (task : Json) (epoch : ℤ) :
    Except Raised Bool :=
  gateWaiver gate (fun evidenceId => (records.reverse.find? fun record =>
    (record.get "id").equal (.str evidenceId)).getD .null) task epoch

end CarbonLab.Aegis
