import Sieshka.World

/-!
# Programs of the virtual machine

The steps of a `Program` and the run of one: steps are taken as they are
linked, a tool that raises makes the trace `FAILED`.
-/

namespace Sieshka

open Transactions

/-- A value a tool takes or returns. -/
inductive Value
  | text (s : String)
  | number (n : Int)
  | state (s : OrderState)
  | command (j : Json)

/-- An argument of a step: a literal, `$name` from the context, or
`$name.output` of an earlier step. -/
inductive Arg (Name : Type)
  | value (v : Value)
  | context (name : Name)
  | output (name : Name)

/-- A `TOOL` step with its `next_step`, absent when it is terminal, or a
`CONDITION` step that tests the output of an earlier step. -/
inductive StepAction (Tool Name : Type)
  | tool (tool : Tool) (args : List (Name × Arg Name)) (next : Option Name)
  | condition (tested : Name) (test : Value → Bool) (thenStep otherwise : Name)

structure Step (Tool Name : Type) where
  id : Name
  outputKey : Name
  action : StepAction Tool Name

abbrev Program (Tool Name : Type) := List (Step Tool Name)

/-- `Trace`: the outputs of its steps, and the error of a `FAILED` one. -/
structure VmTrace (Name : Type) where
  outputs : List (Name × Value)
  error : Option String := none

/-- `trace.status == TraceStatus.SUCCESS`. -/
def VmTrace.success {Name : Type} (t : VmTrace Name) : Bool := t.error.isNone

section Run

variable {Tool Name : Type} [DecidableEq Name]

/-- The value bound to a name. -/
def lookup (bindings : List (Name × Value)) (name : Name) : Option Value :=
  (bindings.find? fun b => b.1 = name).map Prod.snd

/-- The arguments a tool is called with. -/
def resolve (context outputs : List (Name × Value)) (args : List (Name × Arg Name)) :
    List (Name × Value) :=
  args.filterMap fun a =>
    match a.2 with
    | .value v => some (a.1, v)
    | .context name => (lookup context name).map fun v => (a.1, v)
    | .output name => (lookup outputs name).map fun v => (a.1, v)

/-- The run from a step on, within a number of steps. -/
def runFrom (tools : Tool → List (Name × Value) → Async Value) (program : Program Tool Name)
    (context : List (Name × Value)) :
    Nat → Name → List (Name × Value) → Async (VmTrace Name)
  | 0, _, outputs => .ret { outputs, error := some "step limit" }
  | fuel + 1, id, outputs =>
      match program.find? fun s => s.id = id with
      | none => .ret { outputs, error := some "unknown step" }
      | some step =>
          match step.action with
          | .tool tool args next =>
              (tools tool (resolve context outputs args)).andThen
                (fun out =>
                  let outputs := (step.id, out) :: (step.outputKey, out) :: outputs
                  match next with
                  | none => .ret { outputs }
                  | some next => runFrom tools program context fuel next outputs)
                (fun e => .ret { outputs, error := some e.message })
          | .condition tested test thenStep otherwise =>
              match lookup outputs tested with
              | none => .ret { outputs, error := some "unresolved reference" }
              | some v =>
                  runFrom tools program context fuel (if test v then thenStep else otherwise)
                    outputs

/-- `ExecutionVM.run`. -/
def vmRun (tools : Tool → List (Name × Value) → Async Value) (program : Program Tool Name)
    (context : List (Name × Value)) : Async (VmTrace Name) :=
  match program with
  | [] => .ret { outputs := [], error := some "empty program" }
  | first :: _ => runFrom tools program context program.length first.id []

end Run

end Sieshka
