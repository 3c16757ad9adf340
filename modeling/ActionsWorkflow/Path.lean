/-!
# Field paths

A field path leads from a record to one of its fields through map keys and list
positions, outermost first.  The empty path is the record itself.  Moving a path under
another one is concatenation, so the paths form a monoid with the empty path as its unit.
-/

namespace ActionsWorkflow

inductive Segment where
  | key (name : String)
  | index (position : Nat)
  deriving DecidableEq, Repr

structure Path where
  segments : List Segment
  deriving DecidableEq, Repr

namespace Path

def root : Path := ⟨[]⟩

def key (path : Path) (name : String) : Path := ⟨path.segments ++ [.key name]⟩

def index (path : Path) (position : Nat) : Path := ⟨path.segments ++ [.index position]⟩

def within (path outer : Path) : Path := ⟨outer.segments ++ path.segments⟩

def isRoot (path : Path) : Bool := path.segments.isEmpty

def renderSuffix : List Segment → String
  | [] => ""
  | .key name :: rest => "." ++ name ++ renderSuffix rest
  | .index position :: rest => "[" ++ toString position ++ "]" ++ renderSuffix rest

/-- Keys are separated by dots, positions stand in brackets, and the empty path is `(root)`. -/
def render (path : Path) : String :=
  match path.segments with
  | [] => "(root)"
  | .key name :: rest => name ++ renderSuffix rest
  | segments => renderSuffix segments

@[simp] theorem within_root (path : Path) : path.within root = path := rfl

@[simp] theorem root_within (outer : Path) : root.within outer = outer := by
  simp [within, root]

theorem within_within (inner middle outer : Path) :
    (inner.within middle).within outer = inner.within (middle.within outer) := by
  simp [within]

@[simp] theorem key_within (path outer : Path) (name : String) :
    (path.key name).within outer = (path.within outer).key name := by
  simp [within, key]

@[simp] theorem index_within (path outer : Path) (position : Nat) :
    (path.index position).within outer = (path.within outer).index position := by
  simp [within, index]

end Path

end ActionsWorkflow
