import Sieshka.Services.NarrativeReceipts

/-!
# What is approved

The decision over several traces is "approve" when no trace has a failed step. The status
that a trace ended with plays no part in it.
-/

namespace Sieshka

/-! ## The rules -/

section Rules

variable {StepMetrics : Type}

@[simp] theorem mem_matchedRules_rejected (er : ExecutionReceipt StepMetrics) :
    "rejected_transitions_detected" ∈ matchedRules er ↔ er.rejectedTransitions ≠ [] := by
  simp [matchedRules]

@[simp] theorem mem_matchedRules_failed (er : ExecutionReceipt StepMetrics) :
    "execution_failed" ∈ matchedRules er ↔
      er.rejectedTransitions ≠ [] ∧ er.finalStatus = "failed" := by
  simp [matchedRules, List.length_pos_iff]

@[simp] theorem mem_matchedRules_blocked (er : ExecutionReceipt StepMetrics) :
    "actions_blocked" ∈ matchedRules er ↔ 0 < er.blockedActions := by
  simp [matchedRules]

@[simp] theorem mem_matchedRules_escalated (er : ExecutionReceipt StepMetrics) :
    "escalations_raised" ∈ matchedRules er ↔ 0 < er.escalations := by
  simp [matchedRules]

/-- Receipts are approved when none has a rejected transition, a blocked action or an
escalation. -/
theorem generate_approve_iff (receipts : List (ExecutionReceipt StepMetrics)) :
    (generate receipts).decision = "approve" ↔ ∀ er ∈ receipts,
      er.rejectedTransitions = [] ∧ er.blockedActions ≤ 0 ∧ er.escalations ≤ 0 := by
  have hrules := foldl_noteReceipt_rules receipts ([], [])
  rw [List.nil_append] at hrules
  unfold generate
  dsimp only
  rw [hrules]
  simp only [List.mem_flatMap, mem_matchedRules_blocked, mem_matchedRules_escalated,
    mem_matchedRules_rejected, mem_matchedRules_failed]
  constructor
  · intro h er her
    split_ifs at h with hescalate hreject
    · simp at h
    · simp at h
    · rw [not_or] at hescalate hreject
      refine ⟨?_, ?_, ?_⟩
      · by_contra hne
        exact hreject.1 ⟨er, her, hne⟩
      · by_contra hpos
        exact hescalate.1 ⟨er, her, not_le.mp hpos⟩
      · by_contra hpos
        exact hescalate.2 ⟨er, her, not_le.mp hpos⟩
  · intro h
    rw [if_neg, if_neg]
    · rintro (⟨er, her, hne⟩ | ⟨er, her, hne, -⟩)
      · exact hne (h er her).1
      · exact hne (h er her).1
    · rintro (⟨er, her, hpos⟩ | ⟨er, her, hpos⟩)
      · exact absurd hpos (not_lt.mpr (h er her).2.1)
      · exact absurd hpos (not_lt.mpr (h er her).2.2)

end Rules

/-! ## The traces -/

section Traces

variable {TraceStatus StepStatus StepMetrics : Type} [DecidableEq TraceStatus]
  [DecidableEq StepStatus] (V : VmStatuses TraceStatus StepStatus)

/-- A trace ended with `SUCCESS`, and no step of it failed. -/
def Succeeded (trace : ExecutionTrace TraceStatus StepStatus StepMetrics) : Prop :=
  trace.status = V.success ∧ ∀ step ∈ trace.steps, step.status ≠ V.stepFailed

/-- Traces are approved when no step of them failed, whatever they ended with. -/
theorem approved_iff (traces : List (ExecutionTrace TraceStatus StepStatus StepMetrics)) :
    (generate (traces.map (buildReceipt V))).decision = "approve" ↔
      ∀ trace ∈ traces, ∀ step ∈ trace.steps, step.status ≠ V.stepFailed := by
  rw [generate_approve_iff]
  constructor
  · intro h trace htrace
    have hreceipt := h _ (List.mem_map_of_mem htrace)
    exact (rejectedFrom_eq_nil_iff V).mp hreceipt.1
  · intro h er her
    obtain ⟨trace, htrace, rfl⟩ := List.mem_map.mp her
    exact ⟨(rejectedFrom_eq_nil_iff V).mpr (h trace htrace), le_rfl, le_rfl⟩

/-- Only traces that succeeded are approved, exactly when some step failed or every trace
ended with `SUCCESS`. -/
theorem approved_only_succeeded_iff
    (traces : List (ExecutionTrace TraceStatus StepStatus StepMetrics)) :
    ((generate (traces.map (buildReceipt V))).decision = "approve" →
        ∀ trace ∈ traces, Succeeded V trace) ↔
      (∃ trace ∈ traces, ∃ step ∈ trace.steps, step.status = V.stepFailed) ∨
        ∀ trace ∈ traces, trace.status = V.success := by
  rw [approved_iff]
  constructor
  · intro h
    by_cases hsteps : ∀ trace ∈ traces, ∀ step ∈ trace.steps, step.status ≠ V.stepFailed
    · right
      intro trace htrace
      exact (h hsteps trace htrace).1
    · left
      push Not at hsteps
      exact hsteps
  · rintro (⟨trace, htrace, step, hstep, hfailed⟩ | hsuccess) hsteps
    · exact absurd hfailed (hsteps trace htrace step hstep)
    · intro trace htrace
      exact ⟨hsuccess trace htrace, hsteps trace htrace⟩

end Traces

/-! ## A trace that waits -/

/-- Three of the statuses of a trace. -/
inductive SampleStatus
  | SUCCESS
  | FAILED
  | SUSPENDED
deriving DecidableEq

def sampleStatuses : VmStatuses SampleStatus SampleStatus where
  success := .SUCCESS
  failed := .FAILED
  suspended := .SUSPENDED
  value
    | .SUCCESS => "success"
    | .FAILED => "failed"
    | .SUSPENDED => "suspended"
  stepSuccess := .SUCCESS
  stepFailed := .FAILED

/-- A trace of one step, which succeeded. -/
def oneStep (status : SampleStatus) : ExecutionTrace SampleStatus SampleStatus Empty where
  traceId := "trace-1"
  status := status
  steps := [⟨"create_invoice", .SUCCESS, none⟩]
  durationMs := none
  totalCostUsd := none
  canonicalSnapshotHash := "abc"
  stepMetrics := none

/-- A trace that is suspended, and one that failed without a failed step, are approved. -/
theorem unfinished_approved :
    generate ([oneStep .SUSPENDED].map (buildReceipt sampleStatuses)) =
        ⟨"approve", "All transitions completed successfully",
          ["all_transitions_successful"], ["trace-1"]⟩ ∧
      (generate ([oneStep .FAILED].map (buildReceipt sampleStatuses))).decision = "approve" ∧
      ¬ Succeeded sampleStatuses (oneStep .SUSPENDED) ∧
      ¬ Succeeded sampleStatuses (oneStep .FAILED) := by
  refine ⟨by decide +kernel, by decide +kernel, ?_, ?_⟩
  · rintro ⟨hstatus, -⟩
    exact absurd hstatus (by decide)
  · rintro ⟨hstatus, -⟩
    exact absurd hstatus (by decide)

end Sieshka
