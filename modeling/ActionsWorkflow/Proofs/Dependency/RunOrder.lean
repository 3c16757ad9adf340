import ActionsWorkflow.Dependency.RunOrder
import ActionsWorkflow.Proofs.Dependency.Verification

/-!
# Run orders of graphs without cycles

In a graph without cycles a job has fewer jobs behind it than any job that it needs, so the
construction goes deep enough.  It lists every job once and none before one of its needs,
and therefore a graph that has been verified always has a run order.
-/

namespace ActionsWorkflow.DependencyGraph

open Relation (ReflTransGen TransGen)

variable {graph : DependencyGraph}

def Acyclic (graph : DependencyGraph) : Prop := ∀ job, ¬ TransGen graph.Needs job job

def followers (graph : DependencyGraph) (job : String) : List String :=
  graph.jobs.filter fun other => graph.requires other job

theorem followers_lt_of_needs (hacyclic : graph.Acyclic) {job other : String}
    (hjob : job ∈ graph.jobs) (hneed : graph.Needs other job) :
    (graph.followers other).length < (graph.followers job).length := by
  have hother := hneed.mem_jobs
  have hsub : graph.followers other =
      (graph.followers job).filter fun follower => graph.requires follower other := by
    rw [followers, followers, List.filter_filter]
    refine List.filter_congr fun follower _ => ?_
    by_cases hrequires : graph.requires follower other = true
    · have hpath := (requires_iff hother).1 hrequires
      simp [hrequires, (requires_iff hjob).2 (hpath.tail hneed)]
    · simp [hrequires]
  -- Only `other` is lost for certain: it follows `job` but not itself.
  rw [hsub, List.length_filter_lt_length_iff_exists]
  refine ⟨other, ?_, ?_⟩
  · exact List.mem_filter.2 ⟨hother, (requires_iff hjob).2 (.single hneed)⟩
  · exact fun hself => hacyclic other ((requires_iff hother).1 hself)

theorem followers_lt_size (hacyclic : graph.Acyclic) {job : String} (hjob : job ∈ graph.jobs) :
    (graph.followers job).length < graph.needs.size := by
  have hlt : (graph.followers job).length < graph.jobs.length := by
    rw [followers, List.length_filter_lt_length_iff_exists]
    exact ⟨job, hjob, fun hself => hacyclic job ((requires_iff hjob).1 hself)⟩
  simpa [jobs, Table.keys, Table.size] using hlt

/-- Whoever needs a listed job is listed, and no job stands before one that it needs or is
listed twice. -/
structure Settled (graph : DependencyGraph) (order : List String) : Prop where
  nodup : order.Nodup
  closed : ∀ job ∈ order, ∀ other, graph.Needs other job → other ∈ order
  arranged : order.Pairwise fun earlier later => ¬ graph.Needs earlier later

structure Placed (graph : DependencyGraph) (order targets result : List String) : Prop where
  keeps : order ⊆ result
  meets : targets ⊆ result
  sound : ∀ job ∈ result, job ∈ order ∨ ∃ target ∈ targets, ReflTransGen graph.Needs job target
  settled : graph.Settled order → graph.Settled result

namespace Placed

variable {order middle result targets : List String} {job : String}

theorem refl (order : List String) : graph.Placed order [] order where
  keeps := List.Subset.refl order
  meets := List.nil_subset order
  sound := fun _ hmem => .inl hmem
  settled := id

theorem of_mem (h : job ∈ order) : graph.Placed order [job] order where
  keeps := List.Subset.refl order
  meets := by simpa using h
  sound := fun _ hmem => .inl hmem
  settled := id

theorem cons (first : graph.Placed order [job] middle)
    (second : graph.Placed middle targets result) :
    graph.Placed order (job :: targets) result where
  keeps := List.Subset.trans first.keeps second.keeps
  meets := List.cons_subset.2
    ⟨second.keeps (first.meets (List.mem_singleton_self job)), second.meets⟩
  sound := by
    intro other hmem
    rcases second.sound other hmem with hmiddle | ⟨target, htarget, hpath⟩
    · rcases first.sound other hmiddle with horder | ⟨target, htarget, hpath⟩
      · exact .inl horder
      · rw [List.mem_singleton.1 htarget] at hpath
        exact .inr ⟨job, List.mem_cons_self, hpath⟩
    · exact .inr ⟨target, List.mem_cons_of_mem _ htarget, hpath⟩
  settled := fun h => second.settled (first.settled h)

/-- A job goes to the front once all that need it have been placed.  It needs none of the
jobs behind it: it would have been placed with them, and then it would require itself. -/
theorem front (hacyclic : graph.Acyclic) (hnew : job ∉ order)
    (h : graph.Placed order (graph.dependentsOf job) result) :
    graph.Placed order [job] (job :: result) where
  keeps := List.subset_cons_of_subset job h.keeps
  meets := by simp
  sound := by
    intro other hmem
    rcases List.mem_cons.1 hmem with rfl | hmem
    · exact .inr ⟨other, List.mem_singleton_self other, .refl⟩
    rcases h.sound other hmem with horder | ⟨target, htarget, hpath⟩
    · exact .inl horder
    · exact .inr ⟨job, List.mem_singleton_self job,
        hpath.tail (mem_dependentsOf_iff.1 htarget)⟩
  settled := by
    intro horder
    obtain ⟨hnodup, hclosed, harranged⟩ := h.settled horder
    have hfresh : job ∉ result := by
      intro hmem
      rcases h.sound job hmem with hold | ⟨target, htarget, hpath⟩
      · exact hnew hold
      · exact hacyclic job (TransGen.tail' hpath (mem_dependentsOf_iff.1 htarget))
    refine ⟨List.nodup_cons.2 ⟨hfresh, hnodup⟩, ?_, List.pairwise_cons.2 ⟨?_, harranged⟩⟩
    · intro listed hmem other hneed
      rcases List.mem_cons.1 hmem with rfl | hmem
      · exact List.mem_cons_of_mem _ (h.meets (mem_dependentsOf_iff.2 hneed))
      · exact List.mem_cons_of_mem _ (hclosed listed hmem other hneed)
    · exact fun later hlater hneed => hfresh (hclosed later hlater job hneed)

end Placed

theorem placed_foldl {insert : List String → String → List String} {targets : List String}
    (hinsert : ∀ order, ∀ job ∈ targets, graph.Placed order [job] (insert order job))
    (order : List String) : graph.Placed order targets (targets.foldl insert order) := by
  induction targets generalizing order with
  | nil => exact .refl order
  | cons target targets ih =>
      have first := hinsert order target List.mem_cons_self
      exact first.cons (ih (fun order job hjob =>
        hinsert order job (List.mem_cons_of_mem _ hjob)) (insert order target))

theorem placed_place (hacyclic : graph.Acyclic) (depth : Nat) (order : List String)
    {job : String} (hjob : job ∈ graph.jobs) (hdepth : (graph.followers job).length < depth) :
    graph.Placed order [job] (graph.place depth order job) := by
  induction depth generalizing order job with
  | zero => omega
  | succ depth ih =>
      rw [place]
      split
      · rename_i hmem
        exact .of_mem (by simpa using hmem)
      · rename_i hnew
        refine .front hacyclic (by simpa using hnew) (placed_foldl ?_ order)
        intro order other hother
        have hneed := mem_dependentsOf_iff.1 hother
        have hfewer := followers_lt_of_needs hacyclic hjob hneed
        exact ih order hneed.mem_jobs (by omega)

theorem placed_placeAll (hacyclic : graph.Acyclic) :
    graph.Placed [] graph.jobs graph.placeAll :=
  placed_foldl (fun order _ hjob =>
    placed_place hacyclic _ order hjob (followers_lt_size hacyclic hjob)) []

/-! ## Run orders -/

theorem firstMisplaced?_eq_none (hacyclic : graph.Acyclic) {before order : List String}
    (harranged : order.Pairwise fun earlier later => ¬ graph.Needs earlier later)
    (hneeds : ∀ job ∈ order, ∀ need, graph.Needs job need → need ∈ before ∨ need ∈ order) :
    graph.firstMisplaced? before order = none := by
  induction order generalizing before with
  | nil => rfl
  | cons job rest ih =>
      obtain ⟨hjob, hrest⟩ := List.pairwise_cons.1 harranged
      have hbefore : ∀ need, graph.Needs job need → need ∈ before := by
        intro need hneed
        rcases hneeds job List.mem_cons_self need hneed with hmem | hmem
        · exact hmem
        rcases List.mem_cons.1 hmem with rfl | hmem
        · exact absurd (.single hneed) (hacyclic need)
        · exact absurd hneed (hjob need hmem)
      have hall : (graph.needsOf job).all before.contains = true := by
        simpa [Needs] using hbefore
      rw [firstMisplaced?, if_pos hall]
      refine ih hrest fun other hother need hneed => ?_
      rcases hneeds other (List.mem_cons_of_mem _ hother) need hneed with hmem | hmem
      · exact .inl (List.mem_cons_of_mem _ hmem)
      rcases List.mem_cons.1 hmem with rfl | hmem
      · exact .inl List.mem_cons_self
      · exact .inr hmem

theorem mem_jobs_of_needs (hknown : graph.firstUnknown? = none) {job need : String}
    (hneed : graph.Needs job need) : need ∈ graph.jobs := by
  obtain ⟨needs, hneeds⟩ : ∃ needs, graph.needs.get? job = some needs := by
    obtain ⟨⟨_, needs⟩, hentry, rfl⟩ := List.mem_map.1 hneed.mem_jobs
    exact ⟨needs, graph.needs.get?_eq_some_iff.2 hentry⟩
  have hentry := graph.needs.get?_eq_some_iff.1 hneeds
  have hmem : need ∈ needs := by simpa [Needs, needsOf, hneeds] using hneed
  simp only [firstUnknown?, List.findSome?_eq_none_iff, Option.map_eq_none_iff,
    List.find?_eq_none] at hknown
  have hcontains := hknown _ hentry need hmem
  exact graph.needs.contains_iff_mem_keys.1 (by simpa using hcontains)

theorem settled_placeAll (hacyclic : graph.Acyclic) : graph.Settled graph.placeAll :=
  (graph.placed_placeAll hacyclic).settled ⟨.nil, by simp, .nil⟩

theorem perm_placeAll (hacyclic : graph.Acyclic) : graph.placeAll.Perm graph.jobs := by
  have hplaced := graph.placed_placeAll hacyclic
  have hnodup := (settled_placeAll hacyclic).nodup
  refine (List.perm_ext_iff_of_nodup hnodup graph.needs.nodup).2 fun job => ?_
  refine ⟨fun hmem => ?_, fun hjob => hplaced.meets hjob⟩
  rcases hplaced.sound job hmem with hnil | ⟨target, htarget, hpath⟩
  · exact absurd hnil List.not_mem_nil
  · rcases Relation.reflTransGen_iff_eq_or_transGen.1 hpath with rfl | hpath
    · exact htarget
    · exact mem_jobs_of_transGen hpath

theorem mem_before_of_needs (hacyclic : graph.Acyclic) (hknown : graph.firstUnknown? = none)
    {before after : List String} {job need : String}
    (horder : graph.placeAll = before ++ job :: after) (hneed : graph.Needs job need) :
    need ∈ before := by
  have hmem : need ∈ before ++ job :: after := by
    rw [← horder, (perm_placeAll hacyclic).mem_iff]
    exact mem_jobs_of_needs hknown hneed
  rcases List.mem_append.1 hmem with hbefore | hlater
  · exact hbefore
  have harranged := (settled_placeAll hacyclic).arranged
  rw [horder, List.pairwise_append, List.pairwise_cons] at harranged
  rcases List.mem_cons.1 hlater with rfl | hafter
  · exact absurd (.single hneed) (hacyclic need)
  · exact absurd hneed (harranged.2.1.1 need hafter)

theorem runOrder_eq_placeAll (hacyclic : graph.Acyclic) (hknown : graph.firstUnknown? = none) :
    graph.runOrder = .ok graph.placeAll := by
  have hnone : graph.firstMisplaced? [] graph.placeAll = none :=
    firstMisplaced?_eq_none hacyclic (settled_placeAll hacyclic).arranged fun _ _ need hneed =>
      .inr ((perm_placeAll hacyclic).mem_iff.2 (mem_jobs_of_needs hknown hneed))
  rw [runOrder, hnone]

theorem acyclic_of_verify (h : graph.verify = .ok ()) : graph.Acyclic :=
  findCycle?_eq_none_iff.1 (verify_eq_ok_iff.1 h).2

theorem runOrder_of_verify (h : graph.verify = .ok ()) : ∃ order, graph.runOrder = .ok order :=
  ⟨graph.placeAll, runOrder_eq_placeAll (acyclic_of_verify h) (verify_eq_ok_iff.1 h).1⟩

end ActionsWorkflow.DependencyGraph
