import ActionsWorkflow.Format
import ActionsWorkflow.Model.Setting
import ActionsWorkflow.Text.Character
import ActionsWorkflow.Violation

/-!
# Rules

A record is checked field by field and the first field that breaks a rule is reported.
Here are the rules for single fields and the one loop over the items of a list, in which
each item is checked beside the items before it.
-/

namespace ActionsWorkflow

abbrev Verdict := Except Violation Unit

/-- Records with rules beyond their types; `path` is where the record stands. -/
class Checkable (α : Type) where
  check : Path → α → Verdict

export Checkable (check)

def violate {α : Type} (path : Path) (reason : Reason) : Except Violation α :=
  .error ⟨path, reason⟩

def checkOptional {α : Type} (rule : Path → α → Verdict) (path : Path) : Option α → Verdict
  | none => .ok ()
  | some value => rule path value

instance {α : Type} [Checkable α] : Checkable (Option α) := ⟨checkOptional check⟩

def require {α : Type} (path : Path) : Option α → Except Violation α
  | none => violate path .required
  | some value => .ok value

def checkFormat (format : Format) (path : Path) (value : String) : Verdict :=
  if format.accepts value then .ok () else violate path (.mismatch value format.shown)

def isBlank (value : String) : Bool := Text.isBlank value.toList

def checkNotBlank (path : Path) (value : String) : Verdict :=
  if isBlank value then violate path .empty else .ok ()

def checkNotEmpty {α : Type} (path : Path) (values : List α) : Verdict :=
  if values.isEmpty then violate path .empty else .ok ()

def checkAtLeast (least : Nat) (path : Path) (value : Nat) : Verdict :=
  if value < least then violate path (.belowMinimum least) else .ok ()

def checkExclusive {α β : Type} (path : Path) (first : Option α) (second : Option β)
    (secondName : String) : Verdict :=
  if first.isSome && second.isSome then violate path (.conflict secondName) else .ok ()

instance : Checkable Switch where
  check path
    | .flag _ => .ok ()
    | .expression text => checkFormat .expression path text

/-- Check the items that follow `before` in turn, each beside all the items before it. -/
def checkEach {α : Type} (rule : List α → α → Verdict) (before : List α) :
    List α → Verdict
  | [] => .ok ()
  | item :: rest => do
      rule before item
      checkEach rule (before ++ [item]) rest

def checkItems {α : Type} (rule : Path → α → Verdict) (path : Path) (items : List α) :
    Verdict :=
  checkEach (fun before item => rule (path.index before.length) item) [] items

def checkNames (path : Path) (names : List String) : Verdict := do
  checkNotEmpty path names
  checkItems checkNotBlank path names

end ActionsWorkflow
