import ActionsWorkflow.Proofs.Permissions.Grant
import ActionsWorkflow.Proofs.Table.History
import ActionsWorkflow.Proofs.Yaml.Layout

/-!
# Permissions and the calls that granted them

All that permissions say after some scopes have been granted is the level that each of these
scopes was granted last.  Neither the form to start with nor the order of the calls shows, in
the permissions or in what is written for them.
-/

namespace ActionsWorkflow

namespace Permissions

def bases : List Permissions := [.readAll, .writeAll, .scoped []]

def grantAll (base : Permissions) (calls : List Grant) : Permissions :=
  calls.foldl (fun permissions call => permissions.grant call.1 call.2) base

theorem grantAll_concat (base : Permissions) (calls : List Grant) (call : Grant) :
    base.grantAll (calls ++ [call]) = (base.grantAll calls).grant call.1 call.2 := by
  rw [grantAll, List.foldl_append]
  rfl

theorem granted_of_mem_bases {base : Permissions} (h : base ∈ bases) : base.Granted := by
  simp only [bases, List.mem_cons, List.not_mem_nil, or_false] at h
  rcases h with rfl | rfl | rfl
  · exact .readAll
  · exact .writeAll
  · exact .nothing

theorem grants_of_mem_bases : ∀ base ∈ bases, base.grants = [] := by decide

theorem Granted.grantAll {base : Permissions} (h : base.Granted) (calls : List Grant) :
    (base.grantAll calls).Granted := by
  induction calls generalizing base with
  | nil => exact h
  | cons call rest ih => exact ih (h.grant call.1 call.2)

theorem mem_grants_grant {permissions : Permissions} {scope : PermissionScope}
    {level : PermissionLevel} {entry : Grant} :
    entry ∈ (permissions.grant scope level).grants ↔
      entry ∈ permissions.grants ∧ entry.1 ≠ scope ∨ entry = (scope, level) := by
  rw [grant, grants, (perm_sortByRank _).mem_iff, List.mem_append, List.mem_filter,
    List.mem_singleton, decide_eq_true_iff]

theorem mem_grants_grantAll {base : Permissions} (h : base.grants = []) (calls : List Grant)
    (scope : PermissionScope) (level : PermissionLevel) :
    (scope, level) ∈ (base.grantAll calls).grants ↔ lastValue? calls scope = some level := by
  induction calls using List.reverseRecOn with
  | nil => simp [grantAll, h, lastValue?]
  | append_singleton calls call ih =>
      obtain ⟨called, calledLevel⟩ := call
      rw [grantAll_concat, mem_grants_grant, ih, lastValue?_concat]
      by_cases hscope : scope = called
      · simp [hscope, eq_comm]
      · simp [hscope]

theorem grantAll_eq_scoped (base : Permissions) {calls : List Grant} (h : calls ≠ []) :
    base.grantAll calls = .scoped (base.grantAll calls).grants := by
  obtain ⟨front, call, rfl⟩ := List.eq_nil_or_concat calls |>.resolve_left h
  rw [List.concat_eq_append, grantAll_concat]
  rfl

theorem mem_scopes_iff {grants calls : List Grant}
    (h : ∀ scope level, (scope, level) ∈ grants ↔ lastValue? calls scope = some level)
    (scope : PermissionScope) :
    scope ∈ grants.map Prod.fst ↔ scope ∈ calls.map Prod.fst := by
  constructor
  · intro hmem
    obtain ⟨⟨_, level⟩, hgrant, rfl⟩ := List.mem_map.1 hmem
    by_contra habsent
    rw [h, lastValue?_eq_none_iff.2 habsent] at hgrant
    cases hgrant
  · intro hmem
    cases hlast : lastValue? calls scope with
    | none => exact absurd hmem (lastValue?_eq_none_iff.1 hlast)
    | some level => exact List.mem_map.2 ⟨(scope, level), (h scope level).2 hlast, rfl⟩

instance : Std.Irrefl RankLT := ⟨fun _ => Nat.lt_irrefl _⟩

instance : Std.Antisymm RankLT := ⟨fun _ _ h hback => absurd hback (Nat.lt_asymm h)⟩

theorem grantAll_eq_iff {base other : Permissions} (hbase : base ∈ bases)
    (hother : other ∈ bases) {calls others : List Grant} (hcalls : calls ≠ [])
    (hothers : others ≠ []) :
    base.grantAll calls = other.grantAll others ↔
      ∀ scope, lastValue? calls scope = lastValue? others scope := by
  have hmem := mem_grants_grantAll (grants_of_mem_bases base hbase) calls
  have hmemOther := mem_grants_grantAll (grants_of_mem_bases other hother) others
  constructor
  · intro h scope
    ext level
    rw [← hmem, ← hmemOther, h]
  · intro h
    have hgrants : (base.grantAll calls).grants = (other.grantAll others).grants := by
      refine ((granted_of_mem_bases hbase).grantAll calls).pairwise_grants.eq_of_mem_iff
        ((granted_of_mem_bases hother).grantAll others).pairwise_grants ?_
      rintro ⟨scope, level⟩
      rw [hmem, hmemOther, h]
    rw [base.grantAll_eq_scoped hcalls, other.grantAll_eq_scoped hothers, hgrants]

/-! ## What is written -/

def grantLine (grant : Grant) : List Char :=
  grant.1.name.toList ++ ':' :: ' ' :: grant.2.name.toList ++ ['\n']

theorem style_name_scope (scope : PermissionScope) :
    Yaml.style scope.name.toList = .plain := by
  cases scope <;> decide

theorem isSimpleKey_name_scope (scope : PermissionScope) :
    Yaml.isSimpleKey scope.name = true := by
  cases scope <;> decide

theorem style_name_level (level : PermissionLevel) :
    Yaml.style level.name.toList = .plain := by
  cases level <;> decide

theorem textLine_name_level (column : Nat) (level : PermissionLevel) :
    Yaml.textLine column level.name = level.name.toList ++ ['\n'] := by
  rw [Yaml.textLine, Yaml.writeText_of_style_plain (style_name_level level),
    Yaml.terminator_of_style_ne_literal (by rw [style_name_level]; decide)]

theorem keyLead_name_scope (scope : PermissionScope) (level : PermissionLevel) :
    Yaml.keyLead 0 scope.name (.text level.name) = scope.name.toList ++ [':', ' '] := by
  rw [Yaml.keyLead, if_pos (isSimpleKey_name_scope scope),
    Yaml.writeText_of_style_plain (style_name_scope scope)]
  rfl

theorem nil_intercalate (pieces : List (List Char)) :
    [].intercalate pieces = pieces.flatten := by
  induction pieces with
  | nil => rfl
  | cons piece rest ih =>
      cases rest with
      | nil => simp
      | cons next rest =>
          rw [List.intercalate_cons_cons, List.append_nil, ih]
          rfl

theorem render_scoped {grants : List Grant} (h : grants ≠ []) :
    Yaml.render (toDocument (Permissions.scoped grants)) =
      String.ofList (grants.flatMap grantLine) := by
  have hentries : (grants.map fun grant => (grant.1.name, toDocument grant.2)) ≠ [] := by
    simpa using h
  have hline (grant : Grant) :
      Yaml.keyLead 0 grant.1.name (toDocument grant.2) ++
        Yaml.block (Yaml.valueColumn 0 grant.1.name (toDocument grant.2))
          (toDocument grant.2) = grantLine grant := by
    change Yaml.keyLead 0 grant.1.name (.text grant.2.name) ++
      Yaml.block 2 (.text grant.2.name) = _
    rw [keyLead_name_scope, Yaml.block, textLine_name_level, grantLine, List.append_assoc,
      List.append_assoc]
    rfl
  change String.ofList (Yaml.block 0 (.mapping _)) = _
  rw [Yaml.block, List.isEmpty_eq_false_iff.2 hentries, Yaml.blockEntries_eq_map, List.map_map]
  change String.ofList ([].intercalate _) = _
  rw [nil_intercalate, ← List.flatMap_def]
  exact congrArg String.ofList (List.flatMap_congr fun grant _ => hline grant)

/-- Scopes that are granted one after another, from any form to start with, are listed once
each, in the order of the scopes and with the level granted last.  So calls that agree in
the last level of each scope give the same permissions, and only those do; and one line for
each scope is written. -/
theorem grantAll_lastLevels {base : Permissions} (hbase : base ∈ bases) {calls : List Grant}
    (hcalls : calls ≠ []) :
    (∃ grants, base.grantAll calls = .scoped grants ∧ grants.Pairwise RankLT ∧
      (∀ scope, scope ∈ grants.map Prod.fst ↔ scope ∈ calls.map Prod.fst) ∧
      (∀ scope level, (scope, level) ∈ grants ↔ lastValue? calls scope = some level) ∧
      Yaml.render (toDocument (base.grantAll calls)) =
        String.ofList (grants.flatMap grantLine)) ∧
    ∀ other ∈ bases, ∀ others : List Grant, others ≠ [] →
      (base.grantAll calls = other.grantAll others ↔
        ∀ scope, lastValue? calls scope = lastValue? others scope) ∧
      ((∀ scope, lastValue? calls scope = lastValue? others scope) →
        Yaml.render (toDocument (base.grantAll calls)) =
          Yaml.render (toDocument (other.grantAll others))) := by
  have hscoped := base.grantAll_eq_scoped hcalls
  have hmem := mem_grants_grantAll (grants_of_mem_bases base hbase) calls
  have hscopes := mem_scopes_iff hmem
  have hne : (base.grantAll calls).grants ≠ [] := by
    intro hnil
    obtain ⟨call, hcall⟩ := List.exists_mem_of_ne_nil calls hcalls
    have hscope := (hscopes call.1).2 (List.mem_map_of_mem hcall)
    rw [hnil] at hscope
    cases hscope
  refine ⟨⟨(base.grantAll calls).grants, hscoped, ?_, hscopes, hmem, ?_⟩, ?_⟩
  · exact ((granted_of_mem_bases hbase).grantAll calls).pairwise_grants
  · rw [← render_scoped hne, ← hscoped]
  · intro other hother others hothers
    have hiff := grantAll_eq_iff hbase hother hcalls hothers
    exact ⟨hiff, fun hagree => by rw [hiff.2 hagree]⟩

def readOnlyCalls : List Grant :=
  [(.pullRequests, .write), (.contents, .read), (.pullRequests, .read)]

def readOnly : List Grant := [(.pullRequests, .read), (.contents, .read)]

theorem grantAll_lastLevels_readOnly :
    readAll ∈ bases ∧ writeAll ∈ bases ∧ readOnlyCalls ≠ [] ∧ readOnly ≠ [] ∧
    (∀ scope, lastValue? readOnlyCalls scope = lastValue? readOnly scope) ∧
    readAll.grantAll readOnlyCalls = writeAll.grantAll readOnly ∧
    Yaml.render (toDocument (readAll.grantAll readOnlyCalls)) =
      Yaml.render (toDocument (writeAll.grantAll readOnly)) := by
  have hread : readAll ∈ bases := by decide
  have hwrite : writeAll ∈ bases := by decide
  have hcalls : readOnlyCalls ≠ [] := by decide
  have hothers : readOnly ≠ [] := by decide
  have hagree : ∀ scope, lastValue? readOnlyCalls scope = lastValue? readOnly scope := by
    intro scope
    cases scope <;> rfl
  obtain ⟨hequal, hwritten⟩ :=
    (grantAll_lastLevels hread hcalls).2 writeAll hwrite readOnly hothers
  exact ⟨hread, hwrite, hcalls, hothers, hagree, hequal.2 hagree, hwritten hagree⟩

end Permissions

end ActionsWorkflow
