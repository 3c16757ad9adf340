import ActionsWorkflow.Model.Permissions
import Mathlib.Data.List.Sort

/-!
# Granted permissions

However often and in whichever order scopes are granted, each of them is listed once and
they stand in the order of the scopes.
-/

namespace ActionsWorkflow

theorem PermissionScope.rank_inj {scope other : PermissionScope} :
    scope.rank = other.rank ↔ scope = other :=
  List.idxOf_inj (PermissionScope.mem_all scope)

namespace Permissions

/-- What can be made from the three forms to start with by granting scopes. -/
inductive Granted : Permissions → Prop
  | readAll : Granted .readAll
  | writeAll : Granted .writeAll
  | nothing : Granted (.scoped [])
  | grant {permissions : Permissions} (granted : Granted permissions)
      (scope : PermissionScope) (level : PermissionLevel) :
      Granted (permissions.grant scope level)

def RankLE (first second : Grant) : Prop := first.1.rank ≤ second.1.rank

instance : DecidableRel RankLE := fun _ _ => Nat.decLe _ _

instance : Std.Total RankLE := ⟨fun _ _ => Nat.le_total _ _⟩

instance : IsTrans Grant RankLE := ⟨fun _ _ _ => Nat.le_trans⟩

theorem insertByRank_eq_orderedInsert (grant : Grant) (grants : List Grant) :
    insertByRank grant grants = grants.orderedInsert RankLE grant := by
  induction grants with
  | nil => rfl
  | cons other rest ih =>
      rw [insertByRank, List.orderedInsert_cons, ih]
      rfl

theorem sortByRank_eq_insertionSort (grants : List Grant) :
    sortByRank grants = grants.insertionSort RankLE := by
  induction grants with
  | nil => rfl
  | cons grant rest ih =>
      rw [sortByRank, ih, insertByRank_eq_orderedInsert, List.insertionSort_cons]

theorem perm_sortByRank (grants : List Grant) : (sortByRank grants).Perm grants := by
  rw [sortByRank_eq_insertionSort]
  exact List.perm_insertionSort RankLE grants

theorem pairwise_sortByRank (grants : List Grant) : (sortByRank grants).Pairwise RankLE := by
  rw [sortByRank_eq_insertionSort]
  exact List.pairwise_insertionSort RankLE grants

def RankLT (first second : Grant) : Prop := first.1.rank < second.1.rank

theorem rankLT_of_rankLE {first second : Grant} (hle : RankLE first second)
    (hne : first.1 ≠ second.1) : RankLT first second := by
  have hrank : first.1.rank ≠ second.1.rank := fun h => hne (PermissionScope.rank_inj.1 h)
  exact Nat.lt_of_le_of_ne hle hrank

theorem nodup_of_pairwise_rankLT {grants : List Grant} (h : grants.Pairwise RankLT) :
    (grants.map Prod.fst).Nodup := by
  rw [List.Nodup, List.pairwise_map]
  refine h.imp fun {first second} hlt hsame => ?_
  have hrank : first.1.rank = second.1.rank := PermissionScope.rank_inj.2 hsame
  exact absurd hrank (Nat.ne_of_lt hlt)

theorem nodup_filter_append {grants : List Grant} (h : (grants.map Prod.fst).Nodup)
    (scope : PermissionScope) (level : PermissionLevel) :
    ((grants.filter (fun entry => entry.1 ≠ scope) ++ [(scope, level)]).map Prod.fst).Nodup := by
  have hothers : ((grants.filter fun entry => entry.1 ≠ scope).map Prod.fst).Nodup :=
    List.Nodup.sublist (List.filter_sublist.map Prod.fst) h
  have hnew : scope ∉ (grants.filter fun entry => entry.1 ≠ scope).map Prod.fst := by
    simp
  rw [List.map_append, List.map_singleton, List.nodup_append_comm, List.singleton_append,
    List.nodup_cons]
  exact ⟨hnew, hothers⟩

theorem pairwise_grant {permissions : Permissions} (h : permissions.grants.Pairwise RankLT)
    (scope : PermissionScope) (level : PermissionLevel) :
    (permissions.grant scope level).grants.Pairwise RankLT := by
  have hperm := perm_sortByRank
    (permissions.grants.filter (fun entry => entry.1 ≠ scope) ++ [(scope, level)])
  have hsorted := pairwise_sortByRank
    (permissions.grants.filter (fun entry => entry.1 ≠ scope) ++ [(scope, level)])
  have hnodup := (hperm.map Prod.fst).nodup_iff.2
    (nodup_filter_append (nodup_of_pairwise_rankLT h) scope level)
  rw [List.Nodup, List.pairwise_map] at hnodup
  exact (hsorted.and hnodup).imp fun hboth => rankLT_of_rankLE hboth.1 hboth.2

theorem Granted.pairwise_grants {permissions : Permissions} (h : permissions.Granted) :
    permissions.grants.Pairwise RankLT := by
  induction h with
  | readAll => exact .nil
  | writeAll => exact .nil
  | nothing => exact .nil
  | grant _ scope level ih => exact pairwise_grant ih scope level

instance : Std.Antisymm fun scope other : PermissionScope => scope.rank < other.rank :=
  ⟨fun _ _ h hback => absurd hback (Nat.lt_asymm h)⟩

theorem Granted.scopes_sublist {permissions : Permissions} (h : permissions.Granted) :
    (permissions.grants.map Prod.fst).Sublist PermissionScope.all := by
  have hordered : (permissions.grants.map Prod.fst).Pairwise fun scope other =>
      scope.rank < other.rank := List.pairwise_map.2 h.pairwise_grants
  have hsubperm := List.subperm_of_subset (nodup_of_pairwise_rankLT h.pairwise_grants)
    fun scope _ => scope.mem_all
  exact List.sublist_of_subperm_of_pairwise hsubperm hordered (by decide)

end Permissions

end ActionsWorkflow
