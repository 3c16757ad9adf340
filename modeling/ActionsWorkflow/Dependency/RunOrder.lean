import ActionsWorkflow.Dependency.Cycle

/-!
# Run orders

A run order lists the jobs so that each comes after all that it needs.  It is built from
its end: a job is put in front once every job that needs it is there.
-/

namespace ActionsWorkflow.DependencyGraph

/-- Put `job` in front of `order`, after the jobs that need it and are not yet listed. -/
def place (graph : DependencyGraph) : Nat → List String → String → List String
  | 0, order, _ => order
  | depth + 1, order, job =>
      if order.contains job then order
      else job :: (graph.dependentsOf job).foldl (graph.place depth) order

def placeAll (graph : DependencyGraph) : List String :=
  graph.jobs.foldl (graph.place graph.needs.size) []

def firstMisplaced? (graph : DependencyGraph) (before : List String) :
    List String → Option String
  | [] => none
  | job :: rest =>
      if (graph.needsOf job).all before.contains then
        graph.firstMisplaced? (job :: before) rest
      else some job

def runOrder (graph : DependencyGraph) : Except DependencyError (List String) :=
  let order := graph.placeAll
  match graph.firstMisplaced? [] order with
  | some job => .error (.cycle [job])
  | none => .ok order

end ActionsWorkflow.DependencyGraph
