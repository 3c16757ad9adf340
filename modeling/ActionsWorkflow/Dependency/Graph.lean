import ActionsWorkflow.Model.Workflow

/-!
# Job dependencies

The jobs of a workflow in declaration order, each with the jobs it needs.  A need may be
repeated, may be the job itself, and may name no job at all.
-/

namespace ActionsWorkflow

structure DependencyGraph where
  needs : Table (List String)

inductive DependencyError where
  | unknown (job dependency : String)
  | cycle (jobs : List String)
  deriving DecidableEq, Repr

def Workflow.dependencyGraph (workflow : Workflow) : DependencyGraph :=
  ⟨workflow.jobs.map JobEntry.needs⟩

namespace DependencyGraph

def jobs (graph : DependencyGraph) : List String := graph.needs.keys

def needsOf (graph : DependencyGraph) (job : String) : List String :=
  (graph.needs.get? job).getD []

def dependentsOf (graph : DependencyGraph) (job : String) : List String :=
  graph.jobs.filter fun other => (graph.needsOf other).contains job

def needCount (graph : DependencyGraph) : Nat :=
  (graph.needs.entries.flatMap fun entry => entry.2).length

/-- The first job with a need that is no job, and the first such need. -/
def firstUnknown? (graph : DependencyGraph) : Option (String × String) :=
  graph.needs.entries.findSome? fun entry =>
    (entry.2.find? fun need => !graph.needs.contains need).map (entry.1, ·)

/-- The jobs in `seen`, with `job` and all that it needs directly or through others.
Going `depth` needs deep is enough if no more than `depth` jobs are unseen. -/
def visit (graph : DependencyGraph) : Nat → List String → String → List String
  | 0, seen, _ => seen
  | depth + 1, seen, job =>
      if seen.contains job then seen
      else (graph.needsOf job).foldl (graph.visit depth) (job :: seen)

def requirements (graph : DependencyGraph) (job : String) : List String :=
  (graph.needsOf job).foldl (graph.visit graph.needs.size) []

def requires (graph : DependencyGraph) (job other : String) : Bool :=
  (graph.requirements job).contains other

end DependencyGraph

end ActionsWorkflow
