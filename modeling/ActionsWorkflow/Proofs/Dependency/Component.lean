import ActionsWorkflow.Dependency.Cycle
import ActionsWorkflow.Proofs.Dependency.Reachability

/-!
# Components

A component is what one of its jobs requires and is required by.  Of the components that
hold a cycle, the one with the earliest job gives the start of the walk, and that is the
earliest job that requires itself, in whatever order the components were found.
-/

namespace ActionsWorkflow.DependencyGraph

open Relation (ReflTransGen TransGen)

variable {graph : DependencyGraph} {job other : String}

theorem mem_dependentsOf_iff : other ∈ graph.dependentsOf job ↔ graph.Needs other job := by
  simp only [dependentsOf, List.mem_filter, List.contains_iff_mem]
  constructor
  · rintro ⟨-, hneed⟩
    exact hneed
  · intro hneed
    exact ⟨hneed.mem_jobs, hneed⟩

theorem jobs_reversed (graph : DependencyGraph) : graph.reversed.jobs = graph.jobs := by
  simp [jobs, reversed, Table.keys, Function.comp_def]

theorem needsOf_reversed (hjob : job ∈ graph.jobs) :
    graph.reversed.needsOf job = graph.dependentsOf job := by
  obtain ⟨entry, hentry, rfl⟩ := List.mem_map.1 hjob
  have hreversed : (entry.1, graph.dependentsOf entry.1) ∈ graph.reversed.needs.entries :=
    List.mem_map.2 ⟨entry, hentry, rfl⟩
  rw [needsOf, (Table.get?_eq_some_iff _).2 hreversed, Option.getD_some]

theorem needs_reversed_iff :
    graph.reversed.Needs job other ↔ job ∈ graph.jobs ∧ graph.Needs other job := by
  constructor
  · intro h
    have hjob : job ∈ graph.jobs := graph.jobs_reversed ▸ h.mem_jobs
    rw [Needs, needsOf_reversed hjob, mem_dependentsOf_iff] at h
    exact ⟨hjob, h⟩
  · rintro ⟨hjob, h⟩
    rw [Needs, needsOf_reversed hjob, mem_dependentsOf_iff]
    exact h

theorem transGen_reversed_iff (hjob : job ∈ graph.jobs) :
    TransGen graph.reversed.Needs job other ↔ TransGen graph.Needs other job := by
  constructor
  · intro h
    induction h with
    | single hneeds => exact .single (needs_reversed_iff.1 hneeds).2
    | tail _ hneeds ih => exact .head (needs_reversed_iff.1 hneeds).2 ih
  · intro h
    induction h using TransGen.head_induction_on with
    | single hneeds => exact .single (needs_reversed_iff.2 ⟨hjob, hneeds⟩)
    | head hneeds hrest ih =>
        exact ih.tail (needs_reversed_iff.2 ⟨mem_jobs_of_transGen hrest, hneeds⟩)

theorem mem_requirements_reversed_iff (hjob : job ∈ graph.jobs) :
    other ∈ graph.reversed.requirements job ↔ TransGen graph.Needs other job := by
  constructor
  · intro h
    rcases (graph.reversed.explored_requirements job).sound other h with hnil |
      ⟨target, htarget, hpath⟩
    · exact absurd hnil List.not_mem_nil
    · exact (transGen_reversed_iff hjob).1 (.head' htarget hpath)
  · intro h
    rw [mem_requirements_iff (graph.jobs_reversed.symm ▸ mem_jobs_of_transGen h)]
    exact (transGen_reversed_iff hjob).2 h

/-- Each of the two requires the other, unless they are the same job. -/
def Connected (graph : DependencyGraph) (job other : String) : Prop :=
  ReflTransGen graph.Needs job other ∧ ReflTransGen graph.Needs other job

theorem Connected.symm (h : graph.Connected job other) : graph.Connected other job :=
  ⟨h.2, h.1⟩

theorem Connected.trans {third : String} (h : graph.Connected job other)
    (hthird : graph.Connected other third) : graph.Connected job third :=
  ⟨h.1.trans hthird.1, hthird.2.trans h.2⟩

theorem Connected.transGen (h : graph.Connected job other) (hne : job ≠ other) :
    TransGen graph.Needs job job := by
  rcases Relation.reflTransGen_iff_eq_or_transGen.1 h.1 with heq | hforth
  · exact absurd heq.symm hne
  · exact hforth.trans_left h.2

theorem Connected.transGen_iff (h : graph.Connected job other) :
    TransGen graph.Needs job job ↔ TransGen graph.Needs other other :=
  ⟨fun hcycle => (TransGen.trans_right h.2 hcycle).trans_left h.1,
    fun hcycle => (TransGen.trans_right h.1 hcycle).trans_left h.2⟩

theorem mem_connected_iff (hjob : job ∈ graph.jobs) :
    other ∈ graph.connected graph.reversed job ↔ graph.Connected job other := by
  by_cases hother : other = job
  · subst hother
    refine iff_of_true ?_ ⟨.refl, .refl⟩
    rw [connected]
    split <;> exact List.mem_cons_self
  have hboth : graph.Connected job other ↔
      TransGen graph.Needs other job ∧ other ∈ graph.requirements job := by
    constructor
    · rintro ⟨hforth, hback⟩
      have hback := (Relation.reflTransGen_iff_eq_or_transGen.1 hback).resolve_left (Ne.symm hother)
      have hforth := (Relation.reflTransGen_iff_eq_or_transGen.1 hforth).resolve_left hother
      exact ⟨hback, (mem_requirements_iff (mem_jobs_of_transGen hback)).2 hforth⟩
    · rintro ⟨hback, hforth⟩
      rw [mem_requirements_iff (mem_jobs_of_transGen hback)] at hforth
      exact ⟨hforth.to_reflTransGen, hback.to_reflTransGen⟩
  rw [connected]
  split
  next =>
      rw [hboth, ← mem_requirements_reversed_iff hjob]
      simp [hother]
  next hself =>
      rw [List.contains_iff_mem, mem_requirements_iff hjob] at hself
      exact iff_of_false (by simpa using hother) fun h => hself (h.transGen (Ne.symm hother))

theorem nodup_foldl {search : List String → String → List String}
    (hsearch : ∀ seen job, seen.Nodup → (search seen job).Nodup) (targets : List String)
    {seen : List String} (h : seen.Nodup) : (targets.foldl search seen).Nodup := by
  induction targets generalizing seen with
  | nil => exact h
  | cons target targets ih => exact ih (hsearch seen target h)

theorem nodup_visit (depth : Nat) (seen : List String) (job : String) (h : seen.Nodup) :
    (graph.visit depth seen job).Nodup := by
  induction depth generalizing seen job with
  | zero => exact h
  | succ depth ih =>
      rw [visit]
      split
      · exact h
      next hnew => exact nodup_foldl ih _ (List.nodup_cons.2 ⟨by simpa using hnew, h⟩)

theorem nodup_requirements (graph : DependencyGraph) (job : String) :
    (graph.requirements job).Nodup :=
  nodup_foldl (nodup_visit graph.needs.size) _ List.nodup_nil

theorem nodup_connected (graph reversed : DependencyGraph) (job : String) :
    (graph.connected reversed job).Nodup := by
  rw [connected]
  split
  · exact List.nodup_cons.2 ⟨by simp, (reversed.nodup_requirements job).filter _⟩
  · exact List.nodup_singleton job

/-! ## All components -/

/-- Without repetition all that is connected with one job. -/
structure IsComponent (graph : DependencyGraph) (component : List String) : Prop where
  nodup : component.Nodup
  exists_job : ∃ job ∈ component, ∀ other, other ∈ component ↔ graph.Connected job other

/-- Components that some jobs lie in. -/
structure Cover (graph : DependencyGraph) (jobs : List String)
    (components : List (List String)) : Prop where
  sound : ∀ component ∈ components, graph.IsComponent component
  covers : ∀ job ∈ jobs, ∃ component ∈ components, job ∈ component

theorem isComponent_connected (hjob : job ∈ graph.jobs) :
    graph.IsComponent (graph.connected graph.reversed job) :=
  ⟨graph.nodup_connected graph.reversed job, job, (mem_connected_iff hjob).2 ⟨.refl, .refl⟩,
    fun _ => mem_connected_iff hjob⟩

theorem Cover.add {jobs : List String} {found : List (List String)}
    (h : graph.Cover jobs found) (hjob : job ∈ graph.jobs) :
    graph.Cover (jobs ++ [job])
      (if found.any (·.contains job) then found
        else found ++ [graph.connected graph.reversed job]) := by
  split
  next hfound =>
      refine ⟨h.sound, fun other hother => ?_⟩
      rcases List.mem_append.1 hother with hother | hlast
      · exact h.covers other hother
      · obtain ⟨component, hcomponent, hmem⟩ := List.any_eq_true.1 hfound
        rw [List.mem_singleton.1 hlast]
        exact ⟨component, hcomponent, by simpa using hmem⟩
  next =>
      have hnew := isComponent_connected hjob
      refine ⟨?_, fun other hother => ?_⟩
      · rw [List.forall_mem_append, List.forall_mem_singleton]
        exact ⟨h.sound, hnew⟩
      · rcases List.mem_append.1 hother with hother | hlast
        · obtain ⟨component, hcomponent, hmem⟩ := h.covers other hother
          exact ⟨component, List.mem_append_left _ hcomponent, hmem⟩
        · rw [List.mem_singleton.1 hlast]
          exact ⟨_, List.mem_append_right found List.mem_cons_self,
            (mem_connected_iff hjob).2 ⟨.refl, .refl⟩⟩

theorem Cover.foldl {jobs : List String} {found : List (List String)}
    (h : graph.Cover jobs found) {more : List String} (hmore : more ⊆ graph.jobs) :
    graph.Cover (jobs ++ more)
      (more.foldl (fun found job => if found.any (·.contains job) then found
        else found ++ [graph.connected graph.reversed job]) found) := by
  induction more generalizing jobs found with
  | nil => rwa [List.append_nil]
  | cons job rest ih =>
      obtain ⟨hjob, hrest⟩ := List.cons_subset.1 hmore
      rw [List.append_cons]
      exact ih (h.add hjob) hrest

theorem Cover.nil (graph : DependencyGraph) : graph.Cover [] [] :=
  ⟨fun _ h => absurd h List.not_mem_nil, fun _ h => absurd h List.not_mem_nil⟩

theorem cover_components (graph : DependencyGraph) : graph.Cover graph.jobs graph.components :=
  (Cover.nil graph).foldl (List.Subset.refl graph.jobs)

/-! ## The earliest job on a cycle -/

section
variable {component members : List String} {components : List (List String)} {start : String}

theorem IsComponent.mem_iff (h : graph.IsComponent component) (hjob : job ∈ component) :
    other ∈ component ↔ graph.Connected job other := by
  obtain ⟨first, -, hmem⟩ := h.exists_job
  have hfirst := (hmem job).1 hjob
  rw [hmem]
  exact ⟨hfirst.symm.trans, hfirst.trans⟩

theorem IsComponent.isCyclic_iff (h : graph.IsComponent component) (hjob : job ∈ component) :
    graph.isCyclic component = true ↔ TransGen graph.Needs job job := by
  rw [isCyclic, Bool.or_eq_true, decide_eq_true_eq]
  constructor
  · rintro (hlength | hself)
    · by_contra hacyclic
      have halone : component ⊆ [job] := by
        intro other hother
        by_contra hne
        rw [List.mem_singleton] at hne
        exact hacyclic (((h.mem_iff hjob).1 hother).transGen (Ne.symm hne))
      have hle : component.length ≤ 1 := List.Nodup.length_le_of_subset h.nodup halone
      omega
    · obtain ⟨first, hfirst, hneeds⟩ := Option.any_eq_true _ _ |>.1 hself
      have hmem : first ∈ component := List.mem_of_head? hfirst
      have hself : graph.Needs first first := List.contains_iff_mem.1 hneeds
      exact ((h.mem_iff hmem).1 hjob).transGen_iff.1 (.single hself)
  · intro hcycle
    obtain ⟨need, hneed, hback⟩ := TransGen.head'_iff.1 hcycle
    have hmem : need ∈ component := (h.mem_iff hjob).2 ⟨.single hneed, hback⟩
    cases component with
    | nil => cases hjob
    | cons first rest =>
        cases rest with
        | cons => exact .inl (by simp)
        | nil =>
            obtain rfl := List.mem_singleton.1 hjob
            obtain rfl := List.mem_singleton.1 hmem
            exact .inr (List.contains_iff_mem.2 hneed)

theorem exists_earliest? {jobs : List String} (hjob : job ∈ jobs) :
    ∃ first, graph.earliest? jobs = some first :=
  Option.isSome_iff_exists.1 (List.isSome_minOn?_of_mem hjob)

theorem mem_of_earliest? {jobs : List String} {first : String}
    (h : graph.earliest? jobs = some first) : first ∈ jobs :=
  List.minOn?_mem h

theorem idxOf_earliest?_le {jobs : List String} {first : String}
    (h : graph.earliest? jobs = some first) (hjob : job ∈ jobs) :
    graph.jobs.idxOf first ≤ graph.jobs.idxOf job := by
  rw [earliest?] at h
  have hle := List.apply_get_minOn?_le_of_mem (f := fun job => graph.jobs.idxOf job) hjob
  rwa [Option.get_of_eq_some _ h] at hle

theorem idxOf_le_of_find? {jobs : List String} {accepted : String → Bool}
    (hfind : jobs.find? accepted = some start) (hjob : accepted job = true) :
    jobs.idxOf start ≤ jobs.idxOf job := by
  obtain ⟨hstart, before, after, rfl, hbefore⟩ := List.find?_eq_some_iff_append.1 hfind
  have hnew : ∀ other, accepted other = true → other ∉ before := by
    intro other hother hmem
    simpa [hother] using hbefore other hmem
  rw [List.idxOf_append_of_notMem (hnew start hstart), List.idxOf_cons_self,
    List.idxOf_append_of_notMem (hnew job hjob)]
  exact Nat.add_le_add_left (Nat.zero_le _) _

theorem Cover.transGen_of_mem_candidates (h : graph.Cover graph.jobs components)
    (hjob : job ∈ (components.filter graph.isCyclic).filterMap graph.earliest?) :
    TransGen graph.Needs job job := by
  obtain ⟨component, hcomponent, hfirst⟩ := List.mem_filterMap.1 hjob
  obtain ⟨hmem, hcyclic⟩ := List.mem_filter.1 hcomponent
  exact ((h.sound component hmem).isCyclic_iff (mem_of_earliest? hfirst)).1 hcyclic

theorem Cover.mem_candidates (h : graph.Cover graph.jobs components)
    (hcycle : TransGen graph.Needs start start)
    (hearliest : ∀ job, TransGen graph.Needs job job →
      graph.jobs.idxOf start ≤ graph.jobs.idxOf job) :
    start ∈ (components.filter graph.isCyclic).filterMap graph.earliest? := by
  have hstart := mem_jobs_of_transGen hcycle
  obtain ⟨component, hcomponent, hmem⟩ := h.covers start hstart
  have hsound := h.sound component hcomponent
  have hcyclic := (hsound.isCyclic_iff hmem).2 hcycle
  obtain ⟨first, hfirst⟩ := graph.exists_earliest? hmem
  have hself := (hsound.isCyclic_iff (mem_of_earliest? hfirst)).1 hcyclic
  have hsame : start = first := (List.idxOf_inj hstart).1
    (Nat.le_antisymm (hearliest first hself) (idxOf_earliest?_le hfirst hmem))
  exact List.mem_filterMap.2
    ⟨component, List.mem_filter.2 ⟨hcomponent, hcyclic⟩, hsame ▸ hfirst⟩

/-- Whatever the order of the components, the start is the earliest job that requires
itself. -/
theorem Cover.startIn?_eq (h : graph.Cover graph.jobs components) :
    graph.startIn? components = graph.jobs.find? fun job => graph.requires job job := by
  rw [startIn?]
  cases hfind : graph.jobs.find? fun job => graph.requires job job with
  | none =>
      have hnone : (components.filter graph.isCyclic).filterMap graph.earliest? = [] := by
        rw [List.eq_nil_iff_forall_not_mem]
        intro job hjob
        have hcycle := h.transGen_of_mem_candidates hjob
        have hmem := mem_jobs_of_transGen hcycle
        exact List.find?_eq_none.1 hfind job hmem ((requires_iff hmem).2 hcycle)
      rw [hnone]
      rfl
  | some start =>
      have hself : graph.requires start start = true :=
        List.find?_some (p := fun job => graph.requires job job) hfind
      have hstart := List.mem_of_find?_eq_some hfind
      have hfirst : ∀ job, TransGen graph.Needs job job →
          graph.jobs.idxOf start ≤ graph.jobs.idxOf job := fun job hcycle =>
        idxOf_le_of_find? hfind ((requires_iff (mem_jobs_of_transGen hcycle)).2 hcycle)
      have hcandidate := h.mem_candidates ((requires_iff hstart).1 hself) hfirst
      obtain ⟨first, hfound⟩ := graph.exists_earliest? hcandidate
      have hle := idxOf_earliest?_le hfound hcandidate
      have hge := hfirst first (h.transGen_of_mem_candidates (mem_of_earliest? hfound))
      rw [hfound, (List.idxOf_inj hstart).1 (Nat.le_antisymm hge hle)]

theorem cycleStart?_eq (graph : DependencyGraph) :
    graph.cycleStart? = graph.jobs.find? fun job => graph.requires job job :=
  graph.cover_components.startIn?_eq

theorem exists_componentOf? (hjob : job ∈ graph.jobs) :
    ∃ members, graph.componentOf? job = some members ∧
      ∀ other, other ∈ members ↔ graph.Connected job other := by
  obtain ⟨component, hcomponent, hmem⟩ := graph.cover_components.covers job hjob
  obtain ⟨members, hmembers⟩ : ∃ members, graph.componentOf? job = some members := by
    rw [componentOf?, ← Option.isSome_iff_exists, List.find?_isSome]
    exact ⟨component, hcomponent, by simpa using hmem⟩
  have hfound : job ∈ members := by simpa using List.find?_some hmembers
  have hsound := graph.cover_components.sound members (List.mem_of_find?_eq_some hmembers)
  exact ⟨members, hmembers, fun _ => hsound.mem_iff hfound⟩

end

end ActionsWorkflow.DependencyGraph
