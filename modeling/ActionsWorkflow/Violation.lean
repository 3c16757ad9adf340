import ActionsWorkflow.Path

/-!
# Violations

A violation names the field that breaks a rule and the rule it breaks.  Reports are what a
user is shown of any failure: the message, a stable code and a piece of advice.
-/

namespace ActionsWorkflow

inductive Reason where
  | required
  | empty
  | mismatch (value expected : String)
  | duplicate (key : String)
  | conflict (other : String)
  | belowMinimum (least : Nat)
  | invalid (explanation : String)
  deriving DecidableEq, Repr

def Reason.message : Reason → String
  | .required => "is required"
  | .empty => "must not be empty"
  | .mismatch value expected => "`" ++ value ++ "` does not match `" ++ expected ++ "`"
  | .duplicate key => "`" ++ key ++ "` is declared more than once"
  | .conflict other => "cannot be combined with `" ++ other ++ "`"
  | .belowMinimum least => "must be at least " ++ toString least
  | .invalid explanation => explanation

structure Violation where
  path : Path
  reason : Reason
  deriving DecidableEq, Repr

structure Report where
  message : String
  code : Option String
  advice : Option String
  deriving DecidableEq, Repr

namespace Violation

def within (violation : Violation) (outer : Path) : Violation :=
  { violation with path := violation.path.within outer }

def message (violation : Violation) : String :=
  "invalid workflow: `" ++ violation.path.render ++ "` " ++ violation.reason.message

def code : String := "ciscript::validation"

def advice : String := "fix the field named above in the workflow definition"

def report (violation : Violation) : Report :=
  ⟨violation.message, some code, some advice⟩

@[simp] theorem within_path (violation : Violation) (outer : Path) :
    (violation.within outer).path = violation.path.within outer := rfl

@[simp] theorem within_reason (violation : Violation) (outer : Path) :
    (violation.within outer).reason = violation.reason := rfl

end Violation

end ActionsWorkflow
