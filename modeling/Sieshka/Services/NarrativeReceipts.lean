import Sieshka.Python.Floats

/-!
# Narrative receipts

`TraceAnalyzer._build_receipt` reads a trace of the virtual machine, and
`NarrativeReceiptService.generate` turns the receipts of several traces into one decision.

## Implementation notes

The statuses of the virtual machine are a parameter: the machine is a package, and the
two functions compare statuses and pass their values on.
-/

namespace Sieshka

/-- The statuses that are named: of `TraceStatus` and of `StepStatus`. -/
structure VmStatuses (TraceStatus StepStatus : Type) where
  success : TraceStatus
  failed : TraceStatus
  suspended : TraceStatus
  /-- `status.value` -/
  value : TraceStatus → String
  stepSuccess : StepStatus
  stepFailed : StepStatus

/-- A step of a trace. -/
structure TraceStep (StepStatus : Type) where
  stepId : String
  status : StepStatus
  error : Option String

/-- A trace, with what its methods return. -/
structure ExecutionTrace (TraceStatus StepStatus StepMetrics : Type) where
  traceId : String
  status : TraceStatus
  steps : List (TraceStep StepStatus)
  durationMs : Option PyFloat
  totalCostUsd : Option PyFloat
  canonicalSnapshotHash : String
  stepMetrics : Option StepMetrics

structure RejectedTransition where
  stepId : String
  stepIndex : ℕ
  error : String

structure TraceHealthReport where
  totalSteps : ℕ
  successfulSteps : ℕ
  failedSteps : ℕ
  totalDurationMs : Option PyFloat
  totalCostUsd : Option PyFloat

structure ExecutionReceipt (StepMetrics : Type) where
  traceId : String
  traceHash : String
  finalStatus : String
  resumable : Bool
  replayable : Bool
  blockedActions : Int
  escalations : Int
  rejectedTransitions : List RejectedTransition
  health : TraceHealthReport
  stepMetrics : Option StepMetrics

/-! ## The receipt of a trace -/

section Receipt

variable {TraceStatus StepStatus StepMetrics : Type} [DecidableEq StepStatus]
  (V : VmStatuses TraceStatus StepStatus)

/-- The failed steps with their indices, from an index on. -/
def rejectedFrom : ℕ → List (TraceStep StepStatus) → List RejectedTransition
  | _, [] => []
  | idx, step :: rest =>
      if step.status = V.stepFailed then
        { stepId := step.stepId
          stepIndex := idx
          error := match step.error with
            | none => "Unknown error"
            | some error => if error = "" then "Unknown error" else error }
          :: rejectedFrom (idx + 1) rest
      else rejectedFrom (idx + 1) rest

theorem rejectedFrom_eq_nil_iff {idx : ℕ} {steps : List (TraceStep StepStatus)} :
    rejectedFrom V idx steps = [] ↔ ∀ step ∈ steps, step.status ≠ V.stepFailed := by
  induction steps generalizing idx with
  | nil => simp [rejectedFrom]
  | cons step rest ih =>
      rw [rejectedFrom]
      by_cases h : step.status = V.stepFailed
      · simp [h]
      · simp [h, ih]

variable [DecidableEq TraceStatus]

/-- `TraceAnalyzer._build_receipt`. -/
def buildReceipt (trace : ExecutionTrace TraceStatus StepStatus StepMetrics) :
    ExecutionReceipt StepMetrics where
  traceId := trace.traceId
  traceHash := trace.canonicalSnapshotHash
  finalStatus := V.value trace.status
  resumable := trace.status = V.suspended
  replayable := trace.status = V.failed
  blockedActions := 0
  escalations := 0
  rejectedTransitions := rejectedFrom V 0 trace.steps
  health := {
    totalSteps := trace.steps.length
    successfulSteps := trace.steps.countP (·.status = V.stepSuccess)
    failedSteps := trace.steps.countP (·.status = V.stepFailed)
    totalDurationMs := trace.durationMs
    totalCostUsd := trace.totalCostUsd }
  stepMetrics := trace.stepMetrics

end Receipt

/-! ## The narrative of receipts -/

structure NarrativeReceipt where
  decision : String
  reason : String
  rules : List String
  traceIds : List String
deriving DecidableEq

section Narrative

variable {StepMetrics : Type}

/-- One round of the loop of `generate`, on the matched rules and the reasons. -/
def noteReceipt (noted : List String × List String) (er : ExecutionReceipt StepMetrics) :
    List String × List String :=
  let (rules, reasons) := noted
  let (rules, reasons) :=
    if er.rejectedTransitions ≠ [] then
      (rules ++ ["rejected_transitions_detected"],
        reasons ++ ["Trace " ++ er.traceId ++ ": rejected transition(s) at step(s) " ++
          ", ".intercalate (er.rejectedTransitions.map RejectedTransition.stepId)])
    else (rules, reasons)
  let rules :=
    if 0 < er.rejectedTransitions.length ∧ er.finalStatus = "failed" then
      rules ++ ["execution_failed"]
    else rules
  let (rules, reasons) :=
    if 0 < er.blockedActions then
      (rules ++ ["actions_blocked"],
        reasons ++ ["Trace " ++ er.traceId ++ ": " ++ toString er.blockedActions ++
          " action(s) blocked"])
    else (rules, reasons)
  if 0 < er.escalations then
    (rules ++ ["escalations_raised"],
      reasons ++ ["Trace " ++ er.traceId ++ ": " ++ toString er.escalations ++
        " escalation(s)"])
  else (rules, reasons)

/-- `NarrativeReceiptService.generate`. -/
def generate (executionReceipts : List (ExecutionReceipt StepMetrics)) : NarrativeReceipt :=
  let traceIds := executionReceipts.map ExecutionReceipt.traceId
  let (rules, reasons) := executionReceipts.foldl noteReceipt ([], [])
  if "actions_blocked" ∈ rules ∨ "escalations_raised" ∈ rules then
    { decision := "escalate", reason := "; ".intercalate reasons, rules, traceIds }
  else if "rejected_transitions_detected" ∈ rules ∨ "execution_failed" ∈ rules then
    { decision := "reject", reason := "; ".intercalate reasons, rules, traceIds }
  else
    { decision := "approve"
      reason := "; ".intercalate (reasons ++ ["All transitions completed successfully"])
      rules := rules ++ ["all_transitions_successful"]
      traceIds }

/-- The rules that a receipt matches. -/
def matchedRules (er : ExecutionReceipt StepMetrics) : List String :=
  (if er.rejectedTransitions ≠ [] then ["rejected_transitions_detected"] else []) ++
    (if 0 < er.rejectedTransitions.length ∧ er.finalStatus = "failed" then
      ["execution_failed"] else []) ++
    (if 0 < er.blockedActions then ["actions_blocked"] else []) ++
    (if 0 < er.escalations then ["escalations_raised"] else [])

theorem noteReceipt_rules (noted : List String × List String)
    (er : ExecutionReceipt StepMetrics) :
    (noteReceipt noted er).1 = noted.1 ++ matchedRules er := by
  unfold noteReceipt matchedRules
  dsimp only
  split_ifs <;> simp

/-- The loop collects the rules that the receipts match, in their order. -/
theorem foldl_noteReceipt_rules (executionReceipts : List (ExecutionReceipt StepMetrics))
    (noted : List String × List String) :
    (executionReceipts.foldl noteReceipt noted).1 =
      noted.1 ++ executionReceipts.flatMap matchedRules := by
  induction executionReceipts generalizing noted with
  | nil => simp
  | cons er rest ih =>
      rw [List.foldl_cons, ih, noteReceipt_rules, List.flatMap_cons, List.append_assoc]

end Narrative

end Sieshka
