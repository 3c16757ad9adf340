import ActionsWorkflow.Proofs.Dependency.Verification
import Mathlib.Data.List.Chain

/-!
# The cycle that is reported

From the earliest job on a cycle the walk goes on to the first need in the component, until
it comes round to a job again.  What it has gone round is a simple cycle.  It may have
entered that cycle on the way, and then the job that it started from is not reported.
-/

namespace ActionsWorkflow

open Relation (ReflTransGen TransGen)

namespace DependencyGraph

variable {graph : DependencyGraph} {members : List String} {start : String}

def Leads (graph : DependencyGraph) (members : List String) (job next : String) : Prop :=
  (graph.needsOf job).find? members.contains = some next

theorem Leads.mem {job next : String} (h : graph.Leads members job next) : next ∈ members := by
  simpa using List.find?_some h

theorem Leads.unique {job next other : String} (h : graph.Leads members job next)
    (hother : graph.Leads members job other) : other = next :=
  Option.some.inj (hother.symm.trans h)

theorem leads_back (hback : TransGen (graph.Leads members) start start) {job : String}
    (hreached : ReflTransGen (graph.Leads members) start job) :
    ReflTransGen (graph.Leads members) job start := by
  induction hreached with
  | refl => exact .refl
  | tail _ hleads ih =>
      -- The job that the way back starts with is the one that `hleads` leads to.
      obtain ⟨next, hnext, hrest⟩ := TransGen.head'_iff.1 (TransGen.trans_right ih hback)
      exact hleads.unique hnext ▸ hrest

theorem transGen_of_isChain {α : Type} {related : α → α → Prop} {first other : α}
    {rest : List α} (hlinked : (first :: rest).IsChain related) (hmem : other ∈ rest) :
    TransGen related first other :=
  (hlinked.imp fun _ _ => TransGen.single).rel_cons hmem

theorem exists_next_of_isChain {α : Type} {related : α → α → Prop} {cycle : List α}
    (hlinked : (cycle ++ cycle.take 1).IsChain related) {job : α} (hjob : job ∈ cycle) :
    ∃ next ∈ cycle, related job next := by
  obtain ⟨front, back, hcycle⟩ := List.append_of_mem hjob
  have hne : back ++ cycle.take 1 ≠ [] := by simp [hcycle]
  have hwhole : (front ++ job :: (back ++ cycle.take 1)).IsChain related := by
    simpa [hcycle] using hlinked
  have hfrom := hwhole.right_of_append
  obtain ⟨next, hhead⟩ : ∃ next, (back ++ cycle.take 1).head? = some next :=
    ⟨_, List.head?_eq_some_head hne⟩
  refine ⟨next, ?_, (List.isChain_cons.1 hfrom).1 next hhead⟩
  rcases List.mem_append.1 (List.mem_of_head? hhead) with hback | hfirst
  · rw [hcycle]
    exact List.mem_append_right front (List.mem_cons_of_mem job hback)
  · exact List.mem_of_mem_take hfirst

/-- A trail from `start` on which each job leads to the next. -/
structure Walked (graph : DependencyGraph) (members : List String) (start : String)
    (path : List String) (current : String) : Prop extends Trail members path current where
  first : path.head? = some start
  last : path.getLast? = some current
  linked : path.IsChain (graph.Leads members)

/-- A walk that has come round: it goes from `start` along `entrance` to `cycle` and leads
from the last job of `cycle` to the first. -/
structure Round (graph : DependencyGraph) (members : List String) (start : String)
    (entrance cycle : List String) : Prop where
  nonempty : cycle ≠ []
  inside : entrance ++ cycle ⊆ members
  nodup : (entrance ++ cycle).Nodup
  first : (entrance ++ cycle).head? = some start
  linked : (entrance ++ (cycle ++ cycle.take 1)).IsChain (graph.Leads members)

namespace Walked

variable {path : List String} {current next : String}

theorem linked_append (walked : graph.Walked members start path current)
    (hleads : graph.Leads members current next) :
    (path ++ [next]).IsChain (graph.Leads members) := by
  refine walked.linked.append (.singleton next) ?_
  rintro job hjob _ ⟨⟩
  rw [walked.last] at hjob
  exact Option.some.inj hjob ▸ hleads

theorem concat (walked : graph.Walked members start path current)
    (hleads : graph.Leads members current next) (hnew : next ∉ path) :
    graph.Walked members start (path ++ [next]) next where
  toTrail := walked.toTrail.concat hleads.mem hnew
  first := by rw [List.head?_append, walked.first, Option.some_or]
  last := List.getLast?_concat
  linked := walked.linked_append hleads

theorem close (walked : graph.Walked members start path current)
    (hleads : graph.Leads members current next) (hagain : next ∈ path) :
    ∃ entrance,
      graph.Round members start entrance (path.dropWhile fun job => job != next) := by
  obtain ⟨entrance, rest, hpath, hnew⟩ := List.eq_append_cons_of_mem hagain
  have hdrop : (path.dropWhile fun job => job != next) = next :: rest := by
    rw [hpath, List.dropWhile_append_of_pos, List.dropWhile_cons_of_neg (by simp)]
    intro job hjob
    have hne : job ≠ next := fun heq => hnew (heq ▸ hjob)
    simpa using hne
  have hlinked := walked.linked_append hleads
  rw [hpath, List.append_assoc] at hlinked
  rw [hdrop]
  exact ⟨entrance, List.cons_ne_nil _ _, hpath ▸ walked.inside, hpath ▸ walked.nodup,
    hpath ▸ walked.first, hlinked⟩

end Walked

/-- Each step either goes on or closes the walk, so a walk that ends has come round. -/
theorem round_of_walk (steps : Nat) {path cycle : List String} {current : String}
    (walked : graph.Walked members start path current)
    (hwalk : graph.walk members steps path current = some cycle) :
    ∃ entrance, graph.Round members start entrance cycle := by
  induction steps generalizing path current with
  | zero => cases hwalk
  | succ steps ih =>
      obtain ⟨next, hleads, hnext⟩ := Option.bind_eq_some_iff.1 hwalk
      split at hnext
      next hagain =>
          cases hnext
          exact walked.close hleads (by simpa using hagain)
      next hnew => exact ih (walked.concat hleads (by simpa using hnew)) hnext

theorem round_of_findCycle? {cycle : List String} (h : graph.findCycle? = some cycle) :
    ∃ start members, graph.cycleStart? = some start ∧
      (∀ other, other ∈ members ↔ graph.Connected start other) ∧
      ∃ entrance, graph.Round members start entrance cycle := by
  obtain ⟨start, hstart, hwalk⟩ := Option.bind_eq_some_iff.1 h
  obtain ⟨_, hfound, hwalk⟩ := Option.bind_eq_some_iff.1 hwalk
  have hcycle := transGen_of_cycleStart? hstart
  obtain ⟨members, hsame, hmembers⟩ := exists_componentOf? (mem_jobs_of_transGen hcycle)
  obtain rfl := Option.some.inj (hsame.symm.trans hfound)
  have hmem := (hmembers start).2 ⟨.refl, .refl⟩
  have walked : graph.Walked members start [start] start :=
    ⟨⟨by simpa using hmem, by simp, hmem⟩, rfl, rfl, .singleton start⟩
  exact ⟨start, members, hstart, hmembers, round_of_walk _ walked hwalk⟩

/-! ## Where the walk comes round -/

namespace Round

variable {entrance cycle : List String}

theorem linked_cycle (round : graph.Round members start entrance cycle) :
    (cycle ++ cycle.take 1).IsChain (graph.Leads members) :=
  round.linked.right_of_append

theorem head?_eq_iff (round : graph.Round members start entrance cycle) :
    cycle.head? = some start ↔ start ∈ cycle := by
  refine ⟨List.mem_of_head?, fun hmem => ?_⟩
  cases entrance with
  | nil => exact round.first
  | cons job entrance =>
      obtain rfl : job = start := Option.some.inj round.first
      exact absurd (List.mem_append_right entrance hmem) (List.nodup_cons.1 round.nodup).1

theorem reaches (round : graph.Round members start entrance cycle) {job : String}
    (hjob : job ∈ cycle) : ReflTransGen (graph.Leads members) start job := by
  obtain ⟨rest, hwhole⟩ := List.head?_eq_some_iff.1 round.first
  have hlinked : (start :: rest).IsChain (graph.Leads members) := by
    rw [← hwhole]
    exact List.IsChain.left_of_append (by simpa using round.linked)
  have hmem : job ∈ start :: rest := hwhole ▸ List.mem_append_right entrance hjob
  rcases List.mem_cons.1 hmem with rfl | hrest
  · exact .refl
  · exact (transGen_of_isChain hlinked hrest).to_reflTransGen

theorem mem_of_reached (round : graph.Round members start entrance cycle)
    {job other : String} (hjob : job ∈ cycle)
    (hreached : ReflTransGen (graph.Leads members) job other) : other ∈ cycle := by
  induction hreached with
  | refl => exact hjob
  | tail _ hleads ih =>
      obtain ⟨next, hnext, hled⟩ := exists_next_of_isChain round.linked_cycle ih
      exact hleads.unique hled ▸ hnext

theorem mem_start_iff (round : graph.Round members start entrance cycle) :
    start ∈ cycle ↔ TransGen (graph.Leads members) start start := by
  constructor
  · intro hmem
    obtain ⟨rest, rfl⟩ := List.head?_eq_some_iff.1 (round.head?_eq_iff.2 hmem)
    exact transGen_of_isChain round.linked_cycle (by simp)
  · intro hback
    obtain ⟨job, hjob⟩ := List.exists_mem_of_ne_nil cycle round.nonempty
    exact round.mem_of_reached hjob (leads_back hback (round.reaches hjob))

end Round

end DependencyGraph

namespace Workflow

variable {workflow : Workflow}

/-! ## The cycle of a workflow -/

/-- `start` is on a cycle, and no job declared before it is. -/
structure FirstOnCycle (workflow : Workflow) (start : String) : Prop where
  cyclic : TransGen workflow.Needs start start
  earliest : ∃ before after, workflow.jobIds = before ++ start :: after ∧
    ∀ job ∈ before, ¬ TransGen workflow.Needs job job

/-- Each of the two requires the other, unless they are the same job. -/
def Connected (workflow : Workflow) (job other : String) : Prop :=
  ReflTransGen workflow.Needs job other ∧ ReflTransGen workflow.Needs other job

/-- `next` is the first need of `job` that is connected with `start`. -/
def FirstConnectedNeed (workflow : Workflow) (start job next : String) : Prop :=
  ∃ entry known rest, (job, entry) ∈ workflow.jobs.entries ∧
    entry.needs = known ++ next :: rest ∧ workflow.Connected start next ∧
    ∀ need ∈ known, ¬ workflow.Connected start need

theorem firstOnCycle_of_cycleStart? {start : String}
    (h : workflow.dependencyGraph.cycleStart? = some start) : workflow.FirstOnCycle start := by
  have hcyclic := DependencyGraph.transGen_of_cycleStart? h
  rw [DependencyGraph.cycleStart?_eq] at h
  obtain ⟨-, before, after, hjobs, hbefore⟩ := List.find?_eq_some_iff_append.1 h
  rw [needs_dependencyGraph] at hcyclic
  refine ⟨hcyclic, before, after, jobs_dependencyGraph workflow ▸ hjobs, ?_⟩
  intro job hjob hself
  have hmem : job ∈ workflow.dependencyGraph.jobs := by
    rw [hjobs]
    exact List.mem_append_left _ hjob
  rw [← needs_dependencyGraph] at hself
  simpa [(DependencyGraph.requires_iff hmem).2 hself] using hbefore job hjob

theorem connected_dependencyGraph :
    workflow.dependencyGraph.Connected = workflow.Connected := by
  funext job other
  rw [DependencyGraph.Connected, needs_dependencyGraph, Connected]

theorem needsOf_dependencyGraph {job : String} {entry : JobEntry}
    (h : (job, entry) ∈ workflow.jobs.entries) :
    workflow.dependencyGraph.needsOf job = entry.needs := by
  have hentry : (job, entry.needs) ∈ workflow.dependencyGraph.needs.entries :=
    List.mem_map.2 ⟨(job, entry), h, rfl⟩
  rw [DependencyGraph.needsOf, (Table.get?_eq_some_iff _).2 hentry, Option.getD_some]

theorem leads_component_iff {members : List String} {start job next : String}
    (hmembers : ∀ other, other ∈ members ↔ workflow.Connected start other) :
    workflow.dependencyGraph.Leads members job next ↔
      workflow.FirstConnectedNeed start job next := by
  simp only [DependencyGraph.Leads, List.find?_eq_some_iff_append, List.contains_iff_mem,
    Bool.not_eq_true', Bool.eq_false_iff, ne_eq, hmembers]
  constructor
  · rintro ⟨hnext, known, rest, hneeds, hknown⟩
    have hjob : workflow.Needs job next := by
      rw [← needs_dependencyGraph, DependencyGraph.Needs, hneeds]
      simp
    obtain ⟨entry, hentry, -⟩ := hjob
    exact ⟨entry, known, rest, hentry, needsOf_dependencyGraph hentry ▸ hneeds, hnext, hknown⟩
  · rintro ⟨entry, known, rest, hentry, hneeds, hnext, hknown⟩
    exact ⟨hnext, known, rest, (needsOf_dependencyGraph hentry).trans hneeds, hknown⟩

theorem leads_component {members : List String} {start : String}
    (hmembers : ∀ other, other ∈ members ↔ workflow.Connected start other) :
    workflow.dependencyGraph.Leads members = workflow.FirstConnectedNeed start := by
  funext job next
  exact propext (leads_component_iff hmembers)

theorem round_of_verify {jobs : List String}
    (h : workflow.dependencyGraph.verify = .error (.cycle jobs)) :
    ∃ start members, workflow.FirstOnCycle start ∧
      (∀ other, other ∈ members ↔ workflow.Connected start other) ∧
      ∃ entrance, workflow.dependencyGraph.Round members start entrance jobs := by
  obtain ⟨start, members, hstart, hmembers, hround⟩ :=
    DependencyGraph.round_of_findCycle? (DependencyGraph.verify_eq_cycle_iff.1 h).2
  rw [connected_dependencyGraph] at hmembers
  exact ⟨start, members, firstOnCycle_of_cycleStart? hstart, hmembers, hround⟩

theorem FirstConnectedNeed.needs {start job next : String}
    (h : workflow.FirstConnectedNeed start job next) : workflow.Needs job next := by
  obtain ⟨entry, known, rest, hentry, hneeds, -⟩ := h
  exact ⟨entry, hentry, by simp [hneeds]⟩

/-- A reported cycle is a simple cycle in the component of the earliest job on a cycle, and
after each of its jobs comes the first of the needs of that job in the component. -/
theorem verify_cycle_simple {jobs : List String}
    (h : workflow.dependencyGraph.verify = .error (.cycle jobs)) :
    jobs ≠ [] ∧ jobs.Nodup ∧ jobs ⊆ workflow.jobIds ∧
    (jobs ++ jobs.take 1).IsChain workflow.Needs ∧
    ∃ start, workflow.FirstOnCycle start ∧ (∀ job ∈ jobs, workflow.Connected start job) ∧
      (jobs ++ jobs.take 1).IsChain (workflow.FirstConnectedNeed start) := by
  obtain ⟨start, members, hstart, hmembers, entrance, round⟩ := round_of_verify h
  have hlinked := leads_component hmembers ▸ round.linked_cycle
  have hneeds := hlinked.imp fun _ _ => FirstConnectedNeed.needs
  have hdeclared : jobs ⊆ workflow.jobIds := by
    intro job hjob
    obtain ⟨_, -, entry, hentry, -⟩ := DependencyGraph.exists_next_of_isChain hneeds hjob
    exact List.mem_map_of_mem hentry
  have hconnected : ∀ job ∈ jobs, workflow.Connected start job := fun job hjob =>
    (hmembers job).1 (round.inside (List.mem_append_right entrance hjob))
  exact ⟨round.nonempty, (List.nodup_append.1 round.nodup).2.1, hdeclared, hneeds, start,
    hstart, hconnected, hlinked⟩

def setupThenLoop : Workflow := callsWithNeeds
  ⟨[("setup", []), ("a", ["setup", "c"]), ("b", ["a"]), ("c", ["b"]), ("report", ["c"])],
    by decide⟩

theorem verify_cycle_simple_setupThenLoop :
    setupThenLoop.dependencyGraph.verify = .error (.cycle ["a", "c", "b"]) ∧
    (["a", "c", "b", "a"] : List String).IsChain setupThenLoop.Needs ∧
    ∃ start, setupThenLoop.FirstOnCycle start ∧
      (∀ job ∈ ["a", "c", "b"], setupThenLoop.Connected start job) ∧
      (["a", "c", "b", "a"] : List String).IsChain
        (setupThenLoop.FirstConnectedNeed start) := by
  have hverify : setupThenLoop.dependencyGraph.verify = .error (.cycle ["a", "c", "b"]) := rfl
  obtain ⟨-, -, -, hneeds, hcomponent⟩ := verify_cycle_simple hverify
  exact ⟨hverify, hneeds, hcomponent⟩

/-- The reported cycle is the one that the first needs lead to from the earliest job on a
cycle.  It starts with that job, or even has it at all, only if they lead back to it. -/
theorem verify_cycle_start_iff {jobs : List String}
    (h : workflow.dependencyGraph.verify = .error (.cycle jobs)) :
    ∃ start, workflow.FirstOnCycle start ∧
      (∀ job ∈ jobs, ReflTransGen (workflow.FirstConnectedNeed start) start job) ∧
      (jobs.head? = some start ↔ start ∈ jobs) ∧
      (start ∈ jobs ↔ TransGen (workflow.FirstConnectedNeed start) start start) := by
  obtain ⟨start, members, hstart, hmembers, entrance, round⟩ := round_of_verify h
  refine ⟨start, hstart, ?_⟩
  rw [← leads_component hmembers]
  exact ⟨fun _ => round.reaches, round.head?_eq_iff, round.mem_start_iff⟩

theorem verify_cycle_start_iff_setupThenLoop :
    setupThenLoop.dependencyGraph.verify = .error (.cycle ["a", "c", "b"]) ∧
    ∃ start, setupThenLoop.FirstOnCycle start ∧
      (start ∈ ["a", "c", "b"] ↔
        TransGen (setupThenLoop.FirstConnectedNeed start) start start) := by
  have hverify : setupThenLoop.dependencyGraph.verify = .error (.cycle ["a", "c", "b"]) := rfl
  obtain ⟨start, hstart, -, -, hback⟩ := verify_cycle_start_iff hverify
  exact ⟨hverify, start, hstart, hback⟩

def loopBehindLoop : Workflow := callsWithNeeds ⟨[("a", ["b"]), ("b", ["b", "a"])], by decide⟩

/-- The earliest job on a cycle, which is not on the cycle that is reported. -/
theorem verify_cycle_misses_start :
    loopBehindLoop.dependencyGraph.verify = .error (.cycle ["b"]) ∧
    loopBehindLoop.FirstOnCycle "a" ∧ "a" ∉ ["b"] := by
  refine ⟨rfl, ⟨.tail (b := "b") (.single ?_) ?_, [], ["b"], rfl, by simp⟩, by decide⟩
  · exact ⟨.call { uses := "o/r/w.yml", needs := ["b"] }, .head _, .head _⟩
  · exact ⟨.call { uses := "o/r/w.yml", needs := ["b", "a"] }, .tail _ (.head _),
      .tail _ (.head _)⟩

end Workflow

end ActionsWorkflow
