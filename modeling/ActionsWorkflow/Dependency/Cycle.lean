import ActionsWorkflow.Dependency.Graph

/-!
# Dependency cycles

Jobs that require each other form a component, and so does a job that requires no other job
that requires it.  The cycle that is reported lies in the component with the earliest job
that is on a cycle: from there each job leads to the first of its needs in that component,
until a job comes round again.
-/

namespace ActionsWorkflow.DependencyGraph

def reversed (graph : DependencyGraph) : DependencyGraph :=
  ⟨⟨graph.needs.entries.map fun entry => (entry.1, graph.dependentsOf entry.1), by
    simpa [Function.comp_def] using graph.needs.nodup⟩⟩

/-- `job`, and the jobs that it requires and that require it.  There are no others if it
does not require itself. -/
def connected (graph reversed : DependencyGraph) (job : String) : List String :=
  let required := graph.requirements job
  if required.contains job then
    job :: (reversed.requirements job).filter fun other =>
      other != job && required.contains other
  else [job]

def components (graph : DependencyGraph) : List (List String) :=
  let reversed := graph.reversed
  graph.jobs.foldl (fun found job =>
    if found.any (·.contains job) then found else found ++ [graph.connected reversed job]) []

def componentOf? (graph : DependencyGraph) (job : String) : Option (List String) :=
  graph.components.find? (·.contains job)

/-! ## The reported cycle -/

/-- There is more than one job, or the only one needs itself. -/
def isCyclic (graph : DependencyGraph) (component : List String) : Bool :=
  component.length > 1 || component.head?.any fun job => (graph.needsOf job).contains job

def earliest? (graph : DependencyGraph) (jobs : List String) : Option String :=
  jobs.minOn? fun job => graph.jobs.idxOf job

def startIn? (graph : DependencyGraph) (components : List (List String)) : Option String :=
  graph.earliest? ((components.filter graph.isCyclic).filterMap graph.earliest?)

def cycleStart? (graph : DependencyGraph) : Option String := graph.startIn? graph.components

/-- Go on from `current`, the last job of `path`; each step makes the path longer, so it
closes within as many steps as there are members. -/
def walk (graph : DependencyGraph) (members : List String) :
    Nat → List String → String → Option (List String)
  | 0, _, _ => none
  | steps + 1, path, current => do
      let next ← (graph.needsOf current).find? members.contains
      if path.contains next then some (path.dropWhile fun job => job != next)
      else graph.walk members steps (path ++ [next]) next

/-- Jobs of which each needs the next and the last needs the first. -/
def findCycle? (graph : DependencyGraph) : Option (List String) := do
  let start ← graph.cycleStart?
  let members ← graph.componentOf? start
  graph.walk members members.length [start] start

def verify (graph : DependencyGraph) : Except DependencyError Unit :=
  match graph.firstUnknown? with
  | some (job, dependency) => .error (.unknown job dependency)
  | none =>
      match graph.findCycle? with
      | some jobs => .error (.cycle jobs)
      | none => .ok ()

end ActionsWorkflow.DependencyGraph
