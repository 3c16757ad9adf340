import ActionsWorkflow.Proofs.Dependency.Component
import Mathlib.Data.List.Nodup

/-!
# What verification reports

Verification names the first need that is no job, whatever else is wrong, and otherwise
reports a cycle exactly if some job requires itself.  The walk for the cycle cannot get
lost: each member of the component has a need in the component, and no path without
repetition has more jobs than the component.
-/

namespace ActionsWorkflow

open Relation (TransGen)

namespace Workflow

def Needs (workflow : Workflow) (job need : String) : Prop :=
  ∃ entry, (job, entry) ∈ workflow.jobs.entries ∧ need ∈ entry.needs

def HasUnknownNeed (workflow : Workflow) : Prop :=
  ∃ job need, workflow.Needs job need ∧ need ∉ workflow.jobIds

def HasCycle (workflow : Workflow) : Prop :=
  ∃ job, TransGen workflow.Needs job job

def callsWithNeeds (needs : Table (List String)) : Workflow where
  name := "graph"
  on := [.push {}]
  jobs := needs.map fun needs => .call { uses := "o/r/w.yml", needs }

/-- All jobs before `job` need only jobs, and so does `job` up to `need`, which is none. -/
def FirstUnknownNeed (workflow : Workflow) (job need : String) : Prop :=
  ∃ before entry after known rest,
    workflow.jobs.entries = before ++ (job, entry) :: after ∧
    entry.needs = known ++ need :: rest ∧
    (∀ earlier ∈ before, ∀ other ∈ earlier.2.needs, other ∈ workflow.jobIds) ∧
    (∀ other ∈ known, other ∈ workflow.jobIds) ∧ need ∉ workflow.jobIds

theorem jobs_dependencyGraph (workflow : Workflow) :
    workflow.dependencyGraph.jobs = workflow.jobIds :=
  Table.keys_map _ _

theorem needs_dependencyGraph (workflow : Workflow) :
    workflow.dependencyGraph.Needs = workflow.Needs := by
  funext job need
  have hget : workflow.dependencyGraph.needs.get? job =
      (workflow.jobs.get? job).map JobEntry.needs := by
    simp [dependencyGraph, Table.get?, Table.map, List.find?_map, Function.comp_def]
  simp only [DependencyGraph.Needs, DependencyGraph.needsOf, hget, Needs,
    ← Table.get?_eq_some_iff]
  cases workflow.jobs.get? job <;> simp

end Workflow

namespace DependencyGraph

variable {graph : DependencyGraph}

/-! ## The walk -/

theorem exists_need_mem {members : List String} {start job : String}
    (hmembers : ∀ other, other ∈ members ↔ graph.Connected start other)
    (hcycle : TransGen graph.Needs start start) (hjob : job ∈ members) :
    ∃ need ∈ graph.needsOf job, need ∈ members := by
  have hconnected := (hmembers job).1 hjob
  obtain ⟨need, hneed, hback⟩ := TransGen.head'_iff.1 (hconnected.transGen_iff.1 hcycle)
  exact ⟨need, hneed, (hmembers need).2 (hconnected.trans ⟨.single hneed, hback⟩)⟩

/-- What holds of the jobs walked so far, of which `current` is the last. -/
structure Trail (members path : List String) (current : String) : Prop where
  inside : path ⊆ members
  nodup : path.Nodup
  current_mem : current ∈ members

theorem Trail.concat {members path : List String} {current next : String}
    (trail : Trail members path current) (hnext : next ∈ members) (hnew : next ∉ path) :
    Trail members (path ++ [next]) next where
  inside := List.append_subset.2 ⟨trail.inside, by simpa using hnext⟩
  nodup := List.nodup_append.2
    ⟨trail.nodup, by simp, fun _ hjob _ hlast => by
      rw [List.mem_singleton.1 hlast]
      exact fun heq => hnew (heq ▸ hjob)⟩
  current_mem := hnext

theorem walk_closes {members : List String}
    (hstay : ∀ job ∈ members, ∃ need ∈ graph.needsOf job, need ∈ members)
    (steps : Nat) {path : List String} {current : String}
    (trail : Trail members path current) (hsteps : path.length + steps = members.length + 1) :
    ∃ cycle, graph.walk members steps path current = some cycle := by
  induction steps generalizing path current with
  | zero =>
      -- No step is left, yet the path is longer than the component that it lies in.
      have hlength := List.Nodup.length_le_of_subset trail.nodup trail.inside
      omega
  | succ steps ih =>
      obtain ⟨next, hfind⟩ : ∃ next, (graph.needsOf current).find? members.contains =
          some next := by
        obtain ⟨need, hneed, hmem⟩ := hstay current trail.current_mem
        rw [← Option.isSome_iff_exists, List.find?_isSome]
        exact ⟨need, hneed, by simpa using hmem⟩
      have hnext : next ∈ members := by simpa using List.find?_some hfind
      simp only [walk, hfind, Option.bind_eq_bind, Option.bind_some]
      split
      · exact ⟨_, rfl⟩
      · rename_i hnew
        refine ih (trail.concat hnext (by simpa using hnew)) ?_
        simp only [List.length_append, List.length_singleton]
        omega

theorem cycleStart?_eq_none_iff :
    graph.cycleStart? = none ↔ ∀ job, ¬ TransGen graph.Needs job job := by
  simp only [cycleStart?_eq, List.find?_eq_none]
  constructor
  · intro h job hcycle
    have hjob := mem_jobs_of_transGen hcycle
    exact h job hjob ((requires_iff hjob).2 hcycle)
  · intro h job hjob hrequires
    exact h job ((requires_iff hjob).1 hrequires)

theorem transGen_of_cycleStart? {start : String} (h : graph.cycleStart? = some start) :
    TransGen graph.Needs start start := by
  rw [cycleStart?_eq] at h
  have hrequires : graph.requires start start = true :=
    List.find?_some (p := fun job => graph.requires job job) h
  exact (requires_iff (List.mem_of_find?_eq_some h)).1 hrequires

theorem walk_from_start {start : String} (h : graph.cycleStart? = some start) :
    ∃ members cycle, graph.componentOf? start = some members ∧
      graph.walk members members.length [start] start = some cycle := by
  have hcycle := transGen_of_cycleStart? h
  obtain ⟨members, hfound, hmembers⟩ := exists_componentOf? (mem_jobs_of_transGen hcycle)
  have hmem : start ∈ members := (hmembers start).2 ⟨.refl, .refl⟩
  have trail : Trail members [start] start := ⟨by simpa using hmem, by simp, hmem⟩
  obtain ⟨cycle, hwalk⟩ := walk_closes (fun _ => exists_need_mem hmembers hcycle)
    members.length trail (Nat.add_comm 1 members.length)
  exact ⟨members, cycle, hfound, hwalk⟩

theorem findCycle?_eq_none_iff :
    graph.findCycle? = none ↔ ∀ job, ¬ TransGen graph.Needs job job := by
  rw [← cycleStart?_eq_none_iff]
  cases hstart : graph.cycleStart? with
  | none => simp [findCycle?, hstart]
  | some start =>
      obtain ⟨members, cycle, hfound, hwalk⟩ := walk_from_start hstart
      simp [findCycle?, hstart, hfound, hwalk]

/-! ## The three outcomes -/

theorem verify_eq_unknown_iff {job need : String} :
    graph.verify = .error (.unknown job need) ↔ graph.firstUnknown? = some (job, need) := by
  cases hunknown : graph.firstUnknown? <;> cases hcycle : graph.findCycle? <;>
    simp [verify, hunknown, hcycle, Prod.ext_iff]

theorem verify_eq_cycle_iff {jobs : List String} :
    graph.verify = .error (.cycle jobs) ↔
      graph.firstUnknown? = none ∧ graph.findCycle? = some jobs := by
  cases hunknown : graph.firstUnknown? <;> cases hcycle : graph.findCycle? <;>
    simp [verify, hunknown, hcycle]

theorem verify_eq_ok_iff :
    graph.verify = .ok () ↔ graph.firstUnknown? = none ∧ graph.findCycle? = none := by
  cases hunknown : graph.firstUnknown? <;> cases hcycle : graph.findCycle? <;>
    simp [verify, hunknown, hcycle]

end DependencyGraph

namespace Workflow

variable {workflow : Workflow}

def unknownNeed? (workflow : Workflow) (entry : JobEntry) : Option String :=
  entry.needs.find? fun need => !workflow.dependencyGraph.needs.contains need

theorem contains_dependencyGraph_iff {need : String} :
    workflow.dependencyGraph.needs.contains need = true ↔ need ∈ workflow.jobIds := by
  rw [Table.contains_iff_mem_keys, ← jobs_dependencyGraph, DependencyGraph.jobs]

theorem unknownNeed?_eq_none_iff {entry : JobEntry} :
    workflow.unknownNeed? entry = none ↔ ∀ need ∈ entry.needs, need ∈ workflow.jobIds := by
  simp [unknownNeed?, List.find?_eq_none, contains_dependencyGraph_iff]

theorem unknownNeed?_eq_some_iff {entry : JobEntry} {need : String} :
    workflow.unknownNeed? entry = some need ↔
      ∃ known rest, entry.needs = known ++ need :: rest ∧
        (∀ other ∈ known, other ∈ workflow.jobIds) ∧ need ∉ workflow.jobIds := by
  simp only [unknownNeed?, List.find?_eq_some_iff_append, Bool.not_eq_true', Bool.not_not,
    contains_dependencyGraph_iff, ← Bool.not_eq_true]
  constructor
  · rintro ⟨hneed, known, rest, hneeds, hknown⟩
    exact ⟨known, rest, hneeds, hknown, hneed⟩
  · rintro ⟨known, rest, hneeds, hknown, hneed⟩
    exact ⟨hneed, known, rest, hneeds, hknown⟩

theorem firstUnknown?_dependencyGraph :
    workflow.dependencyGraph.firstUnknown? = workflow.jobs.entries.findSome? fun entry =>
      (workflow.unknownNeed? entry.2).map (entry.1, ·) := by
  simp [DependencyGraph.firstUnknown?, dependencyGraph, Table.map, List.findSome?_map,
    Function.comp_def, unknownNeed?]

theorem firstUnknown?_eq_some_iff {job need : String} :
    workflow.dependencyGraph.firstUnknown? = some (job, need) ↔
      workflow.FirstUnknownNeed job need := by
  simp only [firstUnknown?_dependencyGraph, List.findSome?_eq_some_iff, Option.map_eq_none_iff,
    unknownNeed?_eq_none_iff]
  constructor
  · rintro ⟨before, ⟨_, entry⟩, after, hentries, hfound, hbefore⟩
    obtain ⟨_, hneed, hpair⟩ := Option.map_eq_some_iff.1 hfound
    cases hpair
    obtain ⟨known, rest, hneeds, hknown, hunknown⟩ := unknownNeed?_eq_some_iff.1 hneed
    exact ⟨before, entry, after, known, rest, hentries, hneeds, hbefore, hknown, hunknown⟩
  · rintro ⟨before, entry, after, known, rest, hentries, hneeds, hbefore, hknown, hunknown⟩
    have hneed := unknownNeed?_eq_some_iff.2 ⟨known, rest, hneeds, hknown, hunknown⟩
    exact ⟨before, (job, entry), after, hentries, by simp [hneed], hbefore⟩

theorem firstUnknown?_eq_none_iff :
    workflow.dependencyGraph.firstUnknown? = none ↔ ¬ workflow.HasUnknownNeed := by
  simp only [firstUnknown?_dependencyGraph, List.findSome?_eq_none_iff, Option.map_eq_none_iff,
    unknownNeed?_eq_none_iff, HasUnknownNeed, Needs]
  constructor
  · rintro h ⟨job, need, ⟨entry, hentry, hneed⟩, hunknown⟩
    exact hunknown (h (job, entry) hentry need hneed)
  · intro h entry hentry need hneed
    by_contra hunknown
    exact h ⟨entry.1, need, ⟨entry.2, hentry, hneed⟩, hunknown⟩

theorem hasUnknownNeed_iff :
    workflow.HasUnknownNeed ↔ ∃ job need, workflow.FirstUnknownNeed job need := by
  simp only [← firstUnknown?_eq_some_iff]
  rw [← not_iff_not, ← firstUnknown?_eq_none_iff, Option.eq_none_iff_forall_ne_some]
  simp

theorem hasCycle_iff :
    workflow.HasCycle ↔ ∃ cycle, workflow.dependencyGraph.findCycle? = some cycle := by
  rw [← Option.isSome_iff_exists, ← not_iff_not, Option.not_isSome_iff_eq_none,
    DependencyGraph.findCycle?_eq_none_iff, needs_dependencyGraph, HasCycle, not_exists]

theorem hasCycle_iff_walk_closes :
    workflow.HasCycle ↔ ∃ start members cycle,
      workflow.dependencyGraph.cycleStart? = some start ∧
      workflow.dependencyGraph.componentOf? start = some members ∧
      workflow.dependencyGraph.walk members members.length [start] start = some cycle := by
  rw [hasCycle_iff]
  constructor
  · rintro ⟨cycle, hcycle⟩
    obtain ⟨start, hstart, hwalk⟩ := Option.bind_eq_some_iff.1 hcycle
    obtain ⟨members, hmembers, hwalk⟩ := Option.bind_eq_some_iff.1 hwalk
    exact ⟨start, members, cycle, hstart, hmembers, hwalk⟩
  · rintro ⟨start, members, cycle, hstart, hmembers, hwalk⟩
    exact ⟨cycle, Option.bind_eq_some_iff.2
      ⟨start, hstart, Option.bind_eq_some_iff.2 ⟨members, hmembers, hwalk⟩⟩⟩

/-- An unknown need wins over a cycle, and a cycle is found whenever there is one: the walk
from the earliest job on a cycle always closes. -/
theorem verify_dependencyGraph_outcome (workflow : Workflow) :
    (∀ job need, workflow.dependencyGraph.verify = .error (.unknown job need) ↔
      workflow.FirstUnknownNeed job need) ∧
    ((∃ job need, workflow.dependencyGraph.verify = .error (.unknown job need)) ↔
      workflow.HasUnknownNeed) ∧
    ((∃ jobs, workflow.dependencyGraph.verify = .error (.cycle jobs)) ↔
      ¬ workflow.HasUnknownNeed ∧ workflow.HasCycle) ∧
    (workflow.dependencyGraph.verify = .ok () ↔
      ¬ workflow.HasUnknownNeed ∧ ¬ workflow.HasCycle) ∧
    (workflow.HasCycle ↔ ∃ start members cycle,
      workflow.dependencyGraph.cycleStart? = some start ∧
      workflow.dependencyGraph.componentOf? start = some members ∧
      workflow.dependencyGraph.walk members members.length [start] start = some cycle) := by
  refine ⟨fun job need => ?_, ?_, ?_, ?_, hasCycle_iff_walk_closes⟩
  · rw [DependencyGraph.verify_eq_unknown_iff, firstUnknown?_eq_some_iff]
  · simp only [DependencyGraph.verify_eq_unknown_iff, firstUnknown?_eq_some_iff,
      hasUnknownNeed_iff]
  · simp only [DependencyGraph.verify_eq_cycle_iff, firstUnknown?_eq_none_iff, hasCycle_iff,
      exists_and_left]
  · rw [DependencyGraph.verify_eq_ok_iff, firstUnknown?_eq_none_iff, hasCycle_iff,
      ← Option.isSome_iff_exists, Option.not_isSome_iff_eq_none]

end Workflow

end ActionsWorkflow
