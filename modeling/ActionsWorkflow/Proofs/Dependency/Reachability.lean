import ActionsWorkflow.Dependency.Graph
import ActionsWorkflow.Proofs.Table.Entries
import Mathlib.Data.List.Nodup
import Mathlib.Logic.Relation

/-!
# What a job requires

The search for the requirements of a job goes as many needs deep as the graph has jobs.
That is deep enough: it finds exactly the jobs that lie behind one or more needs.
-/

namespace ActionsWorkflow.DependencyGraph

open Relation (ReflTransGen TransGen)

def Needs (graph : DependencyGraph) (job need : String) : Prop :=
  need ∈ graph.needsOf job

variable {graph : DependencyGraph}

theorem needsOf_eq_nil {job : String} (h : job ∉ graph.jobs) : graph.needsOf job = [] := by
  have hnone : graph.needs.get? job = none := by
    rw [← Option.not_isSome_iff_eq_none]
    exact fun hsome => h (graph.needs.contains_iff_mem_keys.1 hsome)
  simp [needsOf, hnone]

theorem Needs.mem_jobs {job need : String} (h : graph.Needs job need) : job ∈ graph.jobs := by
  by_contra hjob
  rw [Needs, needsOf_eq_nil hjob] at h
  exact List.not_mem_nil h

theorem mem_jobs_of_transGen {job other : String} (h : TransGen graph.Needs job other) :
    job ∈ graph.jobs := by
  obtain ⟨_, hneed, _⟩ := TransGen.head'_iff.1 h
  exact hneed.mem_jobs

def unseen (graph : DependencyGraph) (seen : List String) : Nat :=
  (graph.jobs.filter fun job => !seen.contains job).length

theorem unseen_nil (graph : DependencyGraph) : graph.unseen [] = graph.needs.size := by
  simp [unseen, jobs, Table.keys, Table.size]

theorem unseen_le {seen more : List String} (h : seen ⊆ more) :
    graph.unseen more ≤ graph.unseen seen := by
  apply List.Sublist.length_le
  apply List.monotone_filter_right
  intro job hjob
  simp only [Bool.not_eq_true', List.contains_eq_mem, decide_eq_false_iff_not] at hjob ⊢
  exact fun hseen => hjob (h hseen)

theorem unseen_cons_lt {seen : List String} {job : String} (hjob : job ∈ graph.jobs)
    (hnew : job ∉ seen) : graph.unseen (job :: seen) < graph.unseen seen := by
  have hsplit : (graph.jobs.filter fun other => !(job :: seen).contains other) =
      (graph.jobs.filter fun other => !seen.contains other).filter (· != job) := by
    rw [List.filter_filter]
    congr 1
    funext other
    by_cases h : other = job <;> simp [h]
  rw [unseen, hsplit, unseen, List.length_filter_lt_length_iff_exists]
  exact ⟨job, by simp [hjob, hnew], by simp⟩

/-! ## The search -/

/-- What a search that starts from `seen` and goes on to `targets` leaves behind: the needs
of whatever it has added are there too, as far as they are jobs. -/
structure Explored (graph : DependencyGraph) (seen targets result : List String) : Prop where
  keeps : seen ⊆ result
  meets : ∀ target ∈ targets, target ∈ graph.jobs → target ∈ result
  closed : ∀ job ∈ result, job ∉ seen →
    ∀ need, graph.Needs job need → need ∈ graph.jobs → need ∈ result
  sound : ∀ job ∈ result, job ∈ seen ∨ ∃ target ∈ targets, ReflTransGen graph.Needs target job

namespace Explored

variable {seen middle result targets : List String} {job : String}

theorem refl (seen : List String) : graph.Explored seen [] seen where
  keeps := List.Subset.refl seen
  meets := by simp
  closed := fun _ hmem hnew => absurd hmem hnew
  sound := fun _ hmem => .inl hmem

theorem of_seen (h : job ∈ graph.jobs → job ∈ seen) : graph.Explored seen [job] seen where
  keeps := List.Subset.refl seen
  meets := by simpa using h
  closed := fun _ hmem hnew => absurd hmem hnew
  sound := fun _ hmem => .inl hmem

theorem cons (first : graph.Explored seen [job] middle)
    (second : graph.Explored middle targets result) :
    graph.Explored seen (job :: targets) result where
  keeps := List.Subset.trans first.keeps second.keeps
  meets := by
    intro target hmem hjob
    rcases List.mem_cons.1 hmem with rfl | hmem
    · exact second.keeps (first.meets target (List.mem_singleton_self _) hjob)
    · exact second.meets target hmem hjob
  closed := by
    intro other hmem hnew need hneed hjob
    by_cases hmiddle : other ∈ middle
    · exact second.keeps (first.closed other hmiddle hnew need hneed hjob)
    · exact second.closed other hmem hmiddle need hneed hjob
  sound := by
    intro other hmem
    rcases second.sound other hmem with hmiddle | ⟨target, htarget, hpath⟩
    · rcases first.sound other hmiddle with hseen | ⟨target, htarget, hpath⟩
      · exact .inl hseen
      · rw [List.mem_singleton.1 htarget] at hpath
        exact .inr ⟨job, List.mem_cons_self, hpath⟩
    · exact .inr ⟨target, List.mem_cons_of_mem _ htarget, hpath⟩

theorem enter (h : graph.Explored (job :: seen) (graph.needsOf job) result) :
    graph.Explored seen [job] result where
  keeps := fun _ hmem => h.keeps (List.mem_cons_of_mem _ hmem)
  meets := by
    intro target hmem _
    rw [List.mem_singleton.1 hmem]
    exact h.keeps List.mem_cons_self
  closed := by
    intro other hmem hnew need hneed hjob
    by_cases hother : other = job
    · subst hother
      exact h.meets need hneed hjob
    · exact h.closed other hmem (by simp [hother, hnew]) need hneed hjob
  sound := by
    intro other hmem
    rcases h.sound other hmem with hseen | ⟨target, htarget, hpath⟩
    · rcases List.mem_cons.1 hseen with rfl | hseen
      · exact .inr ⟨other, List.mem_singleton_self _, .refl⟩
      · exact .inl hseen
    · exact .inr ⟨job, List.mem_singleton_self _, .head htarget hpath⟩

end Explored

theorem explored_foldl {search : List String → String → List String} {depth : Nat}
    (hsearch : ∀ seen job, graph.unseen seen ≤ depth →
      graph.Explored seen [job] (search seen job))
    (targets seen : List String) (h : graph.unseen seen ≤ depth) :
    graph.Explored seen targets (targets.foldl search seen) := by
  induction targets generalizing seen with
  | nil => exact .refl seen
  | cons target targets ih =>
      have first := hsearch seen target h
      exact first.cons (ih (search seen target) (Nat.le_trans (unseen_le first.keeps) h))

theorem explored_visit (depth : Nat) (seen : List String) (job : String)
    (h : graph.unseen seen ≤ depth) :
    graph.Explored seen [job] (graph.visit depth seen job) := by
  induction depth generalizing seen job with
  | zero =>
      apply Explored.of_seen
      intro hjob
      by_contra hnew
      have := unseen_cons_lt hjob hnew
      omega
  | succ depth ih =>
      rw [visit]
      split
      · rename_i hseen
        exact .of_seen fun _ => by simpa using hseen
      · rename_i hnew
        apply Explored.enter
        by_cases hjob : job ∈ graph.jobs
        · have := unseen_cons_lt hjob (by simpa using hnew)
          exact explored_foldl ih _ _ (by omega)
        · rw [needsOf_eq_nil hjob]
          exact .refl _

theorem explored_requirements (graph : DependencyGraph) (job : String) :
    graph.Explored [] (graph.needsOf job) (graph.requirements job) :=
  explored_foldl (explored_visit graph.needs.size) _ _ (Nat.le_of_eq graph.unseen_nil)

theorem mem_requirements_iff {job other : String} (hother : other ∈ graph.jobs) :
    other ∈ graph.requirements job ↔ TransGen graph.Needs job other := by
  have found := graph.explored_requirements job
  rw [TransGen.head'_iff]
  constructor
  · intro hmem
    rcases found.sound other hmem with hnil | hpath
    · exact absurd hnil List.not_mem_nil
    · exact hpath
  · rintro ⟨need, hneed, hpath⟩
    induction hpath with
    | refl => exact found.meets need hneed hother
    | tail _ hlast ih =>
        exact found.closed _ (ih hlast.mem_jobs) List.not_mem_nil _ hlast hother

theorem requires_iff {job other : String} (hother : other ∈ graph.jobs) :
    graph.requires job other = true ↔ TransGen graph.Needs job other := by
  rw [requires, List.contains_iff_mem, mem_requirements_iff hother]

end ActionsWorkflow.DependencyGraph
